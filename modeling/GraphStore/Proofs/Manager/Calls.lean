import GraphStore.Proofs.Action
import GraphStore.Proofs.Log.Framing
import GraphStore.Proofs.Tables

/-!
Contract: operations that address stores by name, and walks that are followed to their end.

Owns the calls of a user of a manager (`StoreCall`), each of which opens the store it works on,
and the walk over keys as a function of the pages alone (`walked`): where fetching a page
leaves the state as it is, every row of a walk depends on the answers to the fetches and on
nothing else of the backend.
-/

namespace GraphStore

/-! ### Walks over a state that stands still -/

/-- The walk sees the answers of `pages` as long as it runs in `state`. -/
def Steady {σ : Type} (fetch : PageSource σ) (pages : Option Bytes → Nat → Result (List KeyedRow))
    (state : σ) : Prop :=
  ∀ after size, fetch after size state = (pages after size, state)

def stillPages (pages : Option Bytes → Nat → Result (List KeyedRow)) : PageSource Unit :=
  fun after size => Action.ofResult (pages after size)

namespace Pager

variable {σ : Type}

theorem next_of_steady {fetch : PageSource σ}
    {pages : Option Bytes → Nat → Result (List KeyedRow)} {state : σ}
    (steady : Steady fetch pages state) (fuel : Nat) (pager : Pager) :
    next fetch fuel pager state =
      ((next (stillPages pages) fuel pager ()).1, (next (stillPages pages) fuel pager ()).2.1,
        state) := by
  induction fuel generalizing pager with
  | zero => rfl
  | succ fuel inductionHypothesis =>
      rw [next, next]
      split
      · rfl
      · cases drawn : draw pager.selector pager.buffered with
        | mk row rest =>
            cases row with
            | some row => rfl
            | none =>
                dsimp only
                split
                · rfl
                · rw [steady, show stillPages pages pager.lastKey pager.pageSize () =
                    (pages pager.lastKey pager.pageSize, ()) from rfl]
                  cases pages pager.lastKey pager.pageSize with
                  | error failure => rfl
                  | ok page =>
                      dsimp only
                      split
                      · rfl
                      · exact inductionHypothesis _

/-- The rows and failures of a walk up to its end, or up to `fuel` of them, where each takes at
most `count` pages. -/
def walked (pages : Option Bytes → Nat → Result (List KeyedRow)) (count : Nat) :
    (fuel : Nat) → Pager → List (Result KeyedRow)
  | 0, _ => []
  | fuel + 1, pager =>
    match next (stillPages pages) count pager () with
    | (some row, pager, _) => row :: walked pages count fuel pager
    | (none, _, _) => []

end Pager

namespace Manager

variable {σ : Type}

/-- One turn of the collection of rows. -/
theorem collect_succ (manager : Manager σ) (fuel : Nat) (found : List (Result KeyedRow))
    (scan : Scan) (state : σ) :
    Scan.collect manager (ε := StoreError) (fun _ => return ()) (fuel + 1) found scan state =
      match scan.next manager state with
      | (some row, scan, state) =>
        Scan.collect manager (fun _ => return ()) fuel (row :: found) scan state
      | (none, _, state) => (.ok found.reverse, state) := by
  rcases reached : scan.next manager state with ⟨row, after, left⟩
  have fetched : (modifyGet fun state =>
      (((scan.next manager state).1, (scan.next manager state).2.1),
        (scan.next manager state).2.2) : Action σ (Option (Result KeyedRow) × Scan)) state =
        (.ok (row, after), left) := by
    show (Except.ok ((scan.next manager state).1, (scan.next manager state).2.1),
      (scan.next manager state).2.2) = _
    rw [reached]
  rw [Scan.collect]
  refine (Action.bind_of_ok (Action.pure_apply () state)).trans
    ((Action.bind_of_ok fetched).trans ?_)
  cases row with
  | none => rfl
  | some row => rfl

theorem collect_of_steady (manager : Manager σ) {store : StoreRef} {range : KeyRange}
    {slice : Slice} {pages : Option Bytes → Nat → Result (List KeyedRow)} {state : σ}
    (steady : Steady (manager.scanPage store range slice) pages state) (fuel : Nat)
    (found : List (Result KeyedRow)) (pager : Pager) :
    Scan.collect manager (ε := StoreError) (fun _ => return ()) fuel found
        ⟨store, range, slice, pager⟩ state =
      (.ok (found.reverse ++
        pager.walked pages (manager.rowCount store state + 2) fuel), state) := by
  induction fuel generalizing found pager with
  | zero => exact congrArg (fun rows => (Except.ok rows, state)) (List.append_nil _).symm
  | succ fuel inductionHypothesis =>
      have step := Pager.next_of_steady steady (manager.rowCount store state + 2) pager
      rcases reached : pager.next (stillPages pages) (manager.rowCount store state + 2) () with
        ⟨row, after, _⟩
      have moved : Scan.next manager ⟨store, range, slice, pager⟩ state =
          (row, ⟨store, range, slice, after⟩, state) := by
        rw [reached] at step
        simp only [Scan.next, step]
      rw [collect_succ, moved, Pager.walked, reached]
      cases row with
      | none => exact congrArg (fun rows => (Except.ok rows, state)) (List.append_nil _).symm
      | some row =>
          dsimp only
          rw [inductionHypothesis, List.reverse_cons, List.append_assoc]
          rfl

/-- The keys of a store whose pages stand still: the walk over them, and the state as it was. -/
theorem allKeys_of_steady (manager : Manager σ) {store : StoreRef} {range : KeyRange}
    {slice : Slice} {pages : Option Bytes → Nat → Result (List KeyedRow)} {state : σ}
    (started : manager.startScan store state = (.ok (), state))
    (steady : Steady (manager.scanPage store range slice) pages state) (selector : Selector) :
    manager.allKeys store range slice selector state =
      (.ok ((Pager.new selector scanPageRows).walked pages (manager.rowCount store state + 2)
        (manager.rowCount store state + 2)), state) := by
  have begun : manager.getKeys store range slice selector state =
      (.ok ⟨store, range, slice, Pager.new selector scanPageRows⟩, state) :=
    Action.bind_of_ok started
  rw [allKeys, Action.bind_of_ok begun, Action.get_bind, collect_of_steady manager steady]
  rfl

end Manager

/-! ### Calls -/

/-- A call of a user who addresses stores by name. -/
inductive StoreCall where
  | mutate (store : String) (key : Bytes) (additions : List Entry) (deletions : List Bytes)
  | compareAndSwap (store : String) (key column : Bytes) (expected : Option Bytes) (new : Bytes)
  | getSlice (store : String) (key : Bytes) (slice : Slice)
  | getKeys (store : String) (range : KeyRange) (slice : Slice) (selector : Selector)
  | mutateMany (mutations : StoreMutations)
  | clearStorage

inductive Reply where
  | done
  | swapped (written : Bool)
  | entries (entries : List Entry)
  | rows (rows : List (Result KeyedRow))

namespace StoreCall

variable {σ : Type}

/-- Runs a call on a manager. The store is opened for the call, and a walk over keys is followed
to its end. -/
def perform (manager : Manager σ) : StoreCall → Action σ Reply
  | .mutate name key additions deletions => do
    let store ← manager.openStore name
    manager.mutate store key additions deletions
    return .done
  | .compareAndSwap name key column expected new => do
    let store ← manager.openStore name
    return .swapped (← manager.compareAndSwap store key column expected new)
  | .getSlice name key slice => do
    let store ← manager.openStore name
    return .entries (← manager.getSlice store key slice)
  | .getKeys name range slice selector => do
    let store ← manager.openStore name
    return .rows (← manager.allKeys store range slice selector)
  | .mutateMany mutations => do
    manager.mutateMany mutations
    return .done
  | .clearStorage => do
    manager.clearStorage
    return .done

/-- The replies of calls that follow one another, and the state they leave. -/
def performAll (manager : Manager σ) : List StoreCall → σ → List (Result Reply) × σ
  | [], state => ([], state)
  | call :: calls, state =>
    let (reply, after) := call.perform manager state
    let (replies, final) := performAll manager calls after
    (reply :: replies, final)

/-- The row changes that a batch of mutations makes in one store. -/
def batchRows (name : String) (rows : List (Bytes × Mutation)) : List RowChange :=
  rows.map fun row => ⟨name, row.1, row.2.addedEntries, row.2.deletedColumns⟩

/-- The row changes that a call may write. -/
def rowChanges : StoreCall → List RowChange
  | .mutate store key additions deletions => [⟨store, key, additions, deletions⟩]
  | .compareAndSwap store key column _ new => [⟨store, key, [⟨column, new⟩], []⟩]
  | .mutateMany mutations =>
    mutations.entries.flatMap fun store => batchRows store.1 store.2.entries
  | _ => []

/-- Every row change of the call is short enough for a record of a log. -/
def Fits (call : StoreCall) : Prop := ∀ change ∈ call.rowChanges, change.Loggable

instance (call : StoreCall) : Decidable call.Fits := by
  unfold Fits
  infer_instance

theorem not_fits {call : StoreCall} (tooLong : ∃ change ∈ call.rowChanges, ¬ change.Loggable) :
    ¬ call.Fits := by
  obtain ⟨change, member, long⟩ := tooLong
  exact fun fits => long (fits change member)

/-! ### Calls on tables -/

/-- The answer of a call where the stores hold `tables`. -/
def answer (tables : Tables) : StoreCall → Reply
  | .mutate .. => .done
  | .compareAndSwap name key column expected _ =>
    .swapped (Table.cell? (Tables.table tables name) key column = expected)
  | .getSlice name key slice => .entries (Table.slice (Tables.table tables name) key slice)
  | .getKeys name range slice selector =>
    let table := Tables.table tables name
    .rows ((Pager.new selector Manager.scanPageRows).walked
      (fun after size => .ok (Table.page table range slice after size)) (table.size + 2)
      (table.size + 2))
  | .mutateMany _ => .done
  | .clearStorage => .done

/-- The row changes that a call writes where the stores hold `tables`. -/
def written (tables : Tables) : StoreCall → List RowChange
  | .compareAndSwap name key column expected new =>
    if Table.cell? (Tables.table tables name) key column = expected then
      [⟨name, key, [⟨column, new⟩], []⟩]
    else []
  | call => call.rowChanges

def leave (tables : Tables) (call : StoreCall) : Tables :=
  match call with
  | .clearStorage => .empty
  | call => Log.applyAll (call.written tables) tables

section CompareAndSwap

variable {tables : Tables} {name : String} {key column : Bytes} {expected : Option Bytes}

theorem answer_of_expected (found : Table.cell? (Tables.table tables name) key column = expected)
    (new : Bytes) :
    answer tables (.compareAndSwap name key column expected new) = .swapped true :=
  congrArg Reply.swapped (decide_eq_true found)

theorem answer_of_unexpected
    (other : Table.cell? (Tables.table tables name) key column ≠ expected) (new : Bytes) :
    answer tables (.compareAndSwap name key column expected new) = .swapped false :=
  congrArg Reply.swapped (decide_eq_false other)

theorem leave_of_expected (found : Table.cell? (Tables.table tables name) key column = expected)
    (new : Bytes) :
    leave tables (.compareAndSwap name key column expected new) =
      Log.applyAll [⟨name, key, [⟨column, new⟩], []⟩] tables := by
  show Log.applyAll (if _ then _ else _) tables = _
  rw [if_pos found]

theorem leave_of_unexpected
    (other : Table.cell? (Tables.table tables name) key column ≠ expected) (new : Bytes) :
    leave tables (.compareAndSwap name key column expected new) = tables := by
  show Log.applyAll (if _ then _ else _) tables = _
  rw [if_neg other]
  rfl

end CompareAndSwap

/-- Agreeing tables give one answer. -/
theorem answer_congr {left right : Tables} (agree : Tables.Agree left right) (call : StoreCall) :
    call.answer left = call.answer right := by
  cases call with
  | compareAndSwap name key column expected new => rw [answer, answer, agree name]
  | getSlice name key slice => rw [answer, answer, agree name]
  | getKeys name range slice selector => rw [answer, answer, agree name]
  | _ => rfl

theorem written_congr {left right : Tables} (agree : Tables.Agree left right) (call : StoreCall) :
    call.written left = call.written right := by
  cases call with
  | compareAndSwap name key column expected new => rw [written, written, agree name]
  | _ => rfl

/-- A call leaves agreeing tables in agreement. -/
theorem leave_agree {left right : Tables} (agree : Tables.Agree left right) (call : StoreCall) :
    Tables.Agree (call.leave left) (call.leave right) := by
  cases call with
  | clearStorage => exact Tables.Agree.refl _
  | _ =>
      rw [leave, leave, written_congr agree]
      · exact agree.applyAll _
      all_goals exact nofun

end StoreCall

end GraphStore
