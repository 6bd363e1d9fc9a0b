import GraphStore.Proofs.Scan.Accounting
import GraphStore.Proofs.Scan.Partitions
import GraphStore.Proofs.Scan.Work

/-!
Contract: which keys the workers of a scan call the job for.

Owns the invariant of a scan under way (`ScanWorld.Sound`). The calls for a partition are always a
front of its keys in ascending order, and each worker knows what is left of its own partition. A
partition that a worker has left is finished, or the scan is cancelled, or the worker has given up.

Tables are compared with the one at the beginning: a row changes only through the call for its key,
and that call has been given the slices of the row as it was.
-/

namespace GraphStore

/-! ### The invariant -/

namespace ScanCall

/-- The keys of the calls for a partition, in the order of the calls. -/
def keysOf (calls : List ScanCall) (part : Nat) : List Bytes :=
  (calls.filter fun call => call.part = part).map ScanCall.key

theorem keysOf_append_own (calls : List ScanCall) (call : ScanCall) :
    keysOf (calls ++ [call]) call.part = keysOf calls call.part ++ [call.key] := by
  simp [keysOf]

theorem keysOf_append_other (calls : List ScanCall) {call : ScanCall} {part : Nat}
    (other : call.part ≠ part) : keysOf (calls ++ [call]) part = keysOf calls part := by
  simp [keysOf, other]

theorem mem_keysOf {calls : List ScanCall} {call : ScanCall} (member : call ∈ calls) :
    call.key ∈ keysOf calls call.part := by
  apply List.mem_map_of_mem
  simpa using member

theorem of_mem_keysOf {calls : List ScanCall} {part : Nat} {key : Bytes}
    (member : key ∈ keysOf calls part) : ∃ call ∈ calls, call.part = part ∧ call.key = key := by
  obtain ⟨call, listed, same⟩ := List.mem_map.1 member
  have both := List.mem_filter.1 listed
  exact ⟨call, both.1, by simpa using both.2, same⟩

end ScanCall

namespace WorkerPhase

def part? {ω : Type} : WorkerPhase ω → Option Nat
  | opening _ part _ => some part
  | walking _ batch => some batch.part
  | drawn _ batch _ => some batch.part
  | reading _ batch _ _ _ => some batch.part
  | _ => none

end WorkerPhase

namespace ScanPlan

variable {σ ω : Type}

def keysOf (plan : ScanPlan σ ω) (scope : ScanScope) (table : Table) (part : Nat) : List Bytes :=
  match plan.ranges[part]? with
  | some range => scope.keys table range
  | none => []

theorem length_keysOf_le (plan : ScanPlan σ ω) (scope : ScanScope) (table : Table) (part : Nat) :
    (plan.keysOf scope table part).length ≤ table.size := by
  unfold keysOf
  split
  · exact scope.length_keys_le _ _
  · exact Nat.zero_le _

variable (plan : ScanPlan σ ω)

/-- A range that is left of a partition. -/
def Within (part : Nat) (range : KeyRange) : Prop :=
  ∃ whole, plan.ranges[part]? = some whole ∧
    ∀ key, range.contains key = true → whole.contains key = true

/-- A worker that has been set up for the scope. -/
structure Equipped (view : ScanView plan.scanner) (scope : ScanScope) (setup : WorkerSetup ω) :
    Prop where
  driver : setup.driver = scope.driver
  others : setup.others = scope.others
  filter : setup.filter = scope.filter
  starts : plan.job.Starts view setup.worker

/-- A walk that has accepted keys up to `place`. -/
structure Standing (scope : ScanScope) (table : Table) (batch : ScanBatch) (place : Option Bytes)
    (accepted : Nat) : Prop where
  store : batch.walk.store = plan.store
  slice : batch.walk.slice = scope.driver
  within : plan.Within batch.part batch.walk.range
  selector : batch.walk.pager.selector =
    ⟨scope.filter, plan.scanner.options.keysPerBatch, accepted⟩
  fits : accepted ≤ plan.scanner.options.keysPerBatch
  reached : batch.walk.pager.At table batch.walk.range scope.driver place

/-- A batch with a positive bound, whose last key, if it has one, lies in its range. -/
structure Counted (batch : ScanBatch) : Prop where
  positive : 0 < plan.scanner.options.keysPerBatch
  last : batch.keys = 0 ∨ ∃ key, batch.last = some key ∧ batch.walk.range.contains key = true

/-- The rest is what the calls have left of a partition. -/
def Due (scope : ScanScope) (table : Table) (calls : List ScanCall) (part : Nat)
    (rest : List Bytes) : Prop :=
  plan.keysOf scope table part = ScanCall.keysOf calls part ++ rest

/-- A worker with a row at hand that it has not called the job for. -/
structure AtRow (scope : ScanScope) (table : Table) (calls : List ScanCall) (batch : ScanBatch)
    (row : KeyedRow) : Prop where
  standing : plan.Standing scope table batch (some row.key) (batch.keys + 1)
  inside : batch.walk.range.contains row.key = true
  shown : row.entries = Table.slice table row.key scope.driver
  due : plan.Due scope table calls batch.part
    (row.key :: scope.keysBehind table batch.walk.range (some row.key))

def GoodPhase (view : ScanView plan.scanner) (scope : ScanScope) (table : Table)
    (calls : List ScanCall) : WorkerPhase ω → Prop
  | .started worker => plan.job.Starts view worker
  | .seeking setup => plan.Equipped view scope setup
  | .opening setup part range =>
    plan.Equipped view scope setup ∧ plan.Within part range ∧
      plan.Due scope table calls part (scope.keysBehind table range none)
  | .walking setup batch =>
    plan.Equipped view scope setup ∧ plan.Counted batch ∧
      plan.Standing scope table batch batch.last batch.keys ∧
      plan.Due scope table calls batch.part (scope.keysBehind table batch.walk.range batch.last)
  | .drawn setup batch none =>
    plan.Equipped view scope setup ∧ plan.Counted batch ∧
      plan.Within batch.part batch.walk.range ∧
      plan.Due scope table calls batch.part
        (if batch.keys = plan.scanner.options.keysPerBatch then
          scope.keysBehind table batch.walk.range batch.last
        else [])
  | .drawn setup batch (some (.ok row)) =>
    plan.Equipped view scope setup ∧ plan.Counted batch ∧ plan.AtRow scope table calls batch row
  | .drawn setup _ (some (.error _)) => plan.Equipped view scope setup
  | .reading setup batch row found left =>
    plan.Equipped view scope setup ∧ plan.Counted batch ∧
      plan.AtRow scope table calls batch row ∧
      ∃ asked, scope.others = asked ++ left ∧ RowSlices.Show table row.key asked found
  | _ => True

end ScanPlan

namespace ScanWorld

variable {σ ω : Type}

/-- A partition that no worker will come back to: all its keys have been called for, or the scan is
cancelled, or a worker has given up in it. -/
def Settled (plan : ScanPlan σ ω) (scope : ScanScope) (table : Table) (shared : ScanShared σ)
    (part : Nat) : Prop :=
  plan.keysOf scope table part = ScanCall.keysOf shared.calls part ∨
    plan.scanner.isCancelled shared.world = true ∨
    ∃ event ∈ shared.trace, event.aborts part = true

/-- A call for the slices of a row as it was at the beginning, with what became of the row. -/
structure GoodCall (scope : ScanScope) (changes : RowChanges) (table now : Table)
    (call : ScanCall) : Prop where
  slices : RowSlices.Show table call.key (scope.driver :: scope.others) call.slices
  change : changes call.key call.slices call.ending (Table.row table call.key)
    (Table.row now call.key)

/-- What the calls so far have to do with the table at the beginning and with the present one. -/
structure Ledger (plan : ScanPlan σ ω) (view : ScanView plan.scanner) (scope : ScanScope)
    (changes : RowChanges) (table : Table) (shared : ScanShared σ) : Prop where
  ready : view.ready shared.world
  untouched : ∀ key, (∀ call ∈ shared.calls, call.key ≠ key) →
    Table.row (view.table shared.world) key = Table.row table key
  calls : ∀ call ∈ shared.calls, GoodCall scope changes table (view.table shared.world) call
  fronts : ∀ part, ScanCall.keysOf shared.calls part <+: plan.keysOf scope table part
  ahead : ∀ part, shared.taken ≤ part → ScanCall.keysOf shared.calls part = []
  once : (shared.calls.map ScanCall.key).Nodup

/-- What holds throughout a scan that has begun with the given table. -/
structure Sound (plan : ScanPlan σ ω) (view : ScanView plan.scanner) (scope : ScanScope)
    (changes : RowChanges) (table : Table) (world : ScanWorld σ ω) : Prop where
  ledger : Ledger plan view scope changes table world.shared
  phases : ∀ (index : Nat) phase, world.workers[index]? = some phase →
    plan.GoodPhase view scope table world.shared.calls phase
  taken : ∀ (index : Nat) phase part, world.workers[index]? = some phase →
    phase.part? = some part → part < world.shared.taken
  apart : ∀ (left right : Nat) leftPhase rightPhase (part : Nat),
    world.workers[left]? = some leftPhase → world.workers[right]? = some rightPhase →
    leftPhase.part? = some part → rightPhase.part? = some part → left = right
  settled : ∀ part < world.shared.taken,
    (∃ (index : Nat) (phase : WorkerPhase ω),
      world.workers[index]? = some phase ∧ phase.part? = some part) ∨
    Settled plan scope table world.shared part

end ScanWorld

/-! ### Keys of partitions -/

namespace ScanPlan

variable {σ ω : Type} {plan : ScanPlan σ ω} {view : ScanView plan.scanner} {scope : ScanScope}
  {table : Table} {calls : List ScanCall} {part : Nat} {range : KeyRange}

def Apart (plan : ScanPlan σ ω) : Prop :=
  plan.ranges.Pairwise fun left right =>
    ∀ key, left.contains key = true → right.contains key = false

theorem part_unique (apart : plan.Apart) {left right : Nat} {first second : KeyRange}
    {key : Bytes} (isFirst : plan.ranges[left]? = some first)
    (isSecond : plan.ranges[right]? = some second) (inFirst : first.contains key = true)
    (inSecond : second.contains key = true) : left = right := by
  obtain ⟨leftInside, leftIs⟩ := List.getElem?_eq_some_iff.1 isFirst
  obtain ⟨rightInside, rightIs⟩ := List.getElem?_eq_some_iff.1 isSecond
  have ordered := List.pairwise_iff_getElem.1 apart
  rcases Nat.lt_trichotomy left right with less | same | greater
  · have missing := ordered left right leftInside rightInside less key (leftIs ▸ inFirst)
    rw [rightIs, inSecond] at missing
    exact absurd missing.symm Bool.false_ne_true
  · exact same
  · have missing := ordered right left rightInside leftInside greater key (rightIs ▸ inSecond)
    rw [leftIs, inFirst] at missing
    exact absurd missing.symm Bool.false_ne_true

/-- The keys of a part are those of its range. -/
theorem mem_keysOf {key : Bytes} :
    key ∈ plan.keysOf scope table part ↔
      ∃ range, plan.ranges[part]? = some range ∧ key ∈ scope.keys table range := by
  unfold keysOf
  cases plan.ranges[part]? <;> simp

theorem ascending_keysOf : (plan.keysOf scope table part).Pairwise (· < ·) := by
  unfold keysOf
  cases plan.ranges[part]? with
  | none => exact .nil
  | some range => exact ScanScope.ascending_keysBehind

theorem Within.self (present : plan.ranges[part]? = some range) : plan.Within part range :=
  ⟨range, present, fun _ inside => inside⟩

theorem Within.narrow (within : plan.Within part range) {rest : KeyRange}
    (inside : ∀ key, rest.contains key = true → range.contains key = true) :
    plan.Within part rest := by
  obtain ⟨whole, present, inWhole⟩ := within
  exact ⟨whole, present, fun key inRest => inWhole key (inside key inRest)⟩

theorem GoodPhase.congr {phase : WorkerPhase ω} {others : List ScanCall}
    (good : plan.GoodPhase view scope table calls phase)
    (same : ∀ part, phase.part? = some part →
      ScanCall.keysOf others part = ScanCall.keysOf calls part) :
    plan.GoodPhase view scope table others phase := by
  have due : ∀ part rest, phase.part? = some part → plan.Due scope table calls part rest →
      plan.Due scope table others part rest := by
    intro part rest isPart due
    rw [Due, same part isPart]
    exact due
  cases phase with
  | opening setup part range => exact ⟨good.1, good.2.1, due _ _ rfl good.2.2⟩
  | walking setup batch => exact ⟨good.1, good.2.1, good.2.2.1, due _ _ rfl good.2.2.2⟩
  | drawn setup batch row =>
      cases row with
      | none => exact ⟨good.1, good.2.1, good.2.2.1, due _ _ rfl good.2.2.2⟩
      | some row =>
          cases row with
          | error failure => exact good
          | ok row =>
              obtain ⟨equipped, counted, atRow⟩ := good
              exact ⟨equipped, counted, { atRow with due := due _ _ rfl atRow.due }⟩
  | reading setup batch row found left =>
      obtain ⟨equipped, counted, atRow, slices⟩ := good
      exact ⟨equipped, counted, { atRow with due := due _ _ rfl atRow.due }, slices⟩
  | _ => exact good

end ScanPlan

/-! The partitions of a scan of a range. -/

namespace Scanner

variable {σ ω : Type} (scanner : Scanner σ) (job : ScanJob σ ω) (store : StoreRef)
  (range : KeyRange) (jobSettings graphSettings : Configuration)

theorem plan_split :
    range.split (max scanner.options.partitions scanner.options.workers) =
      .ok (scanner.plan job store range jobSettings graphSettings).ranges := by
  obtain ⟨ranges, isSplit, -⟩ := KeyRange.split_tiles range
    (max scanner.options.partitions scanner.options.workers)
  rw [plan, isSplit]
  rfl

/-- The partitions tile the range of the scan. -/
theorem plan_tiles :
    range.Tiles (scanner.plan job store range jobSettings graphSettings).ranges := by
  obtain ⟨ranges, isSplit, tiles⟩ := KeyRange.split_tiles range
    (max scanner.options.partitions scanner.options.workers)
  have same := scanner.plan_split job store range jobSettings graphSettings
  rw [isSplit] at same
  exact Except.ok.inj same ▸ tiles

end Scanner

/-! ### Calls and tables -/

namespace ScanWorld

variable {σ ω : Type} {plan : ScanPlan σ ω} {view : ScanView plan.scanner} {scope : ScanScope}
  {changes : RowChanges} {table : Table} {shared : ScanShared σ} {world : ScanWorld σ ω}

namespace Ledger

theorem mem_of_call (ledger : Ledger plan view scope changes table shared) {call : ScanCall}
    (member : call ∈ shared.calls) : call.key ∈ plan.keysOf scope table call.part :=
  (ledger.fronts call.part).subset (ScanCall.mem_keysOf member)

/-- No call has been made for a key that is left of a partition. -/
theorem uncalled (ledger : Ledger plan view scope changes table shared) (apart : plan.Apart)
    {part : Nat} {rest : List Bytes} (due : plan.Due scope table shared.calls part rest)
    {key : Bytes} (left : key ∈ rest) : ∀ call ∈ shared.calls, call.key ≠ key := by
  intro call member same
  have inPart : key ∈ plan.keysOf scope table part := by
    rw [due]
    exact List.mem_append_right _ left
  obtain ⟨range, isRange, inRange⟩ := ScanPlan.mem_keysOf.1 inPart
  obtain ⟨other, isOther, inOther⟩ := ScanPlan.mem_keysOf.1 (ledger.mem_of_call member)
  have samePart : call.part = part := by
    apply ScanPlan.part_unique apart isOther isRange
      (ScanScope.mem_keys.1 inOther).1
    rw [same]
    exact (ScanScope.mem_keys.1 inRange).1
  have called : key ∈ ScanCall.keysOf shared.calls part := by
    rw [← samePart, ← same]
    exact ScanCall.mem_keysOf member
  have ascending : (plan.keysOf scope table part).Pairwise (· < ·) := ScanPlan.ascending_keysOf
  rw [due] at ascending
  exact Std.lt_irrefl ((List.pairwise_append.1 ascending).2.2 key called key left)

/-- No call has been made for a key behind the place that a worker has reached. -/
theorem uncalled_behind (ledger : Ledger plan view scope changes table shared)
    (apart : plan.Apart) {part : Nat} {range : KeyRange} {place : Option Bytes}
    (due : plan.Due scope table shared.calls part (scope.keysBehind table range place))
    {key : Bytes} (inside : Table.inPage range place key = true) :
    ∀ call ∈ shared.calls, call.key ≠ key := by
  intro call member same
  obtain ⟨other, -, inOther⟩ := ScanPlan.mem_keysOf.1 (ledger.mem_of_call member)
  have inScope := (ScanScope.mem_keys.1 inOther).2
  rw [same] at inScope
  have left : key ∈ scope.keysBehind table range place :=
    ScanScope.mem_keysBehind.2 ⟨inside, inScope⟩
  exact ledger.uncalled apart due left call member same

theorem keeps (ledger : Ledger plan view scope changes table shared) {after : ScanShared σ}
    (keeps : view.Keeps shared.world after.world) (calls : after.calls = shared.calls)
    (taken : shared.taken ≤ after.taken) :
    Ledger plan view scope changes table after where
  ready := keeps.ready ledger.ready
  untouched := by
    rw [calls, keeps.table]
    exact ledger.untouched
  calls := by
    rw [calls, keeps.table]
    exact ledger.calls
  fronts := by
    rw [calls]
    exact ledger.fronts
  ahead := by
    rw [calls]
    intro part beyond
    exact ledger.ahead part (Nat.le_trans taken beyond)
  once := by
    rw [calls]
    exact ledger.once

/-- A call for the key that is due goes on with the ledger. -/
theorem handle (ledger : Ledger plan view scope changes table shared) (apart : plan.Apart)
    {call : ScanCall} {rest : List Bytes} {after : Metered σ}
    (due : plan.Due scope table shared.calls call.part (call.key :: rest))
    (begun : call.part < shared.taken)
    (slices : RowSlices.Show table call.key (scope.driver :: scope.others) call.slices)
    (works : view.Works call.key (changes call.key call.slices call.ending) shared.world
      after.world) :
    Ledger plan view scope changes table ((shared.withMetered after).handle call) := by
  have fresh := ledger.uncalled apart due List.mem_cons_self
  have kept : ((shared.withMetered after).handle call).calls = shared.calls ++ [call] :=
    ScanShared.calls_handle _ _
  have atPresent : Table.row (view.table shared.world) call.key = Table.row table call.key :=
    ledger.untouched call.key fresh
  refine ⟨works.ready, ?_, ?_, ?_, ?_, ?_⟩
  · rw [kept]
    intro key different
    have notOwn : key ≠ call.key := fun same => different call (by simp) same.symm
    have earlier : ∀ other ∈ shared.calls, other.key ≠ key := fun other member =>
      different other (List.mem_append_left _ member)
    exact (works.others key notOwn).trans (ledger.untouched key earlier)
  · rw [kept]
    intro other member
    rcases List.mem_append.1 member with earlier | own
    · have good := ledger.calls other earlier
      refine ⟨good.slices, ?_⟩
      have same : Table.row (view.table after.world) other.key =
          Table.row (view.table shared.world) other.key :=
        works.others other.key (fresh other earlier)
      show changes other.key other.slices other.ending _ (Table.row (view.table after.world) _)
      rw [same]
      exact good.change
    · rw [List.mem_singleton.1 own]
      refine ⟨slices, ?_⟩
      have own := works.own
      rwa [atPresent] at own
  · rw [kept]
    intro part
    by_cases own : call.part = part
    · rw [← own, ScanCall.keysOf_append_own, due]
      exact ⟨rest, by simp⟩
    · rw [ScanCall.keysOf_append_other _ own]
      exact ledger.fronts part
  · rw [kept]
    intro part beyond
    have other : call.part ≠ part := Nat.ne_of_lt (Nat.lt_of_lt_of_le begun beyond)
    rw [ScanCall.keysOf_append_other _ other]
    exact ledger.ahead part beyond
  · rw [kept, List.map_append, List.nodup_append]
    refine ⟨ledger.once, by simp, ?_⟩
    intro key listed other own
    obtain ⟨earlier, member, same⟩ := List.mem_map.1 listed
    rw [← same, List.mem_singleton.1 own]
    exact fresh earlier member

end Ledger

end ScanWorld

end GraphStore
