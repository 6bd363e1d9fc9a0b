import GraphStore.Proofs.Scan.Pages

/-!
Contract: what a scan is about, and what its job may do.

Owns the keys that a scan is about (`ScanScope.keys`), the laws of a job (`ScanWork`), which may
fail in any of its operations but changes no row except the one that it is called for, and the
slices that a call is given (`RowSlices.Show`).
-/

namespace GraphStore

/-- What a scan is about: the slice that keys must have entries in, the slices that are read in
addition, and the keys that concern the job. -/
structure ScanScope where
  driver : Slice
  others : List Slice
  filter : KeyFilter

namespace ScanScope

/-- The keys of a range behind `after` that a scan is about, in ascending order. -/
def keysBehind (scope : ScanScope) (table : Table) (range : KeyRange) (after : Option Bytes) :
    List Bytes :=
  ((table.rowsBehind range scope.driver after).map KeyedRow.key).filter scope.filter

def keys (scope : ScanScope) (table : Table) (range : KeyRange) : List Bytes :=
  scope.keysBehind table range none

variable {scope : ScanScope} {table : Table} {range : KeyRange} {after : Option Bytes}

/-- The keys behind a place are those of the scan that lie above it. -/
theorem mem_keysBehind {key : Bytes} :
    key ∈ scope.keysBehind table range after ↔
      Table.inPage range after key = true ∧ Table.slice table key scope.driver ≠ [] ∧
        scope.filter key = true := by
  unfold keysBehind
  rw [List.mem_filter, List.mem_map]
  constructor
  · intro found
    obtain ⟨⟨row, member, same⟩, accepted⟩ := found
    obtain ⟨inside, shown, filled⟩ := Table.mem_rowsBehind.1 member
    rw [same] at inside shown
    exact ⟨inside, shown ▸ filled, accepted⟩
  · intro found
    obtain ⟨inside, filled, accepted⟩ := found
    exact ⟨⟨⟨key, Table.slice table key scope.driver⟩,
      Table.mem_rowsBehind.2 ⟨inside, rfl, filled⟩, rfl⟩, accepted⟩

theorem ascending_keysBehind : (scope.keysBehind table range after).Pairwise (· < ·) := by
  apply List.Pairwise.filter
  exact List.pairwise_map.2 Table.ascending_rowsBehind

/-- A scan is about the keys of its range that show entries in the driving slice and pass the
filter. -/
theorem mem_keys {key : Bytes} :
    key ∈ scope.keys table range ↔
      range.contains key = true ∧ Table.slice table key scope.driver ≠ [] ∧
        scope.filter key = true := by
  rw [keys, mem_keysBehind]
  simp [Table.inPage]

theorem length_keys_le (scope : ScanScope) (table : Table) (range : KeyRange) :
    (scope.keys table range).length ≤ table.size := by
  calc (scope.keys table range).length
      ≤ _ := List.length_filter_le _ _
    _ = _ := List.length_map _
    _ ≤ table.size := Table.length_rowsBehind_le _ _ _ _

/-- A range that goes on behind a key has the keys that are behind it. -/
theorem keysBehind_of_resumed {rest : KeyRange} {key : Bytes}
    (resumed : ∀ other, rest.contains other = true ↔ range.contains other = true ∧ key < other) :
    scope.keysBehind table rest none = scope.keysBehind table range (some key) := by
  unfold keysBehind
  congr 2
  apply Table.rows_ext Table.ascending_rowsBehind Table.ascending_rowsBehind
  intro row
  rw [Table.mem_rowsBehind, Table.mem_rowsBehind, Table.inPage_some, ← resumed row.key]
  simp [Table.inPage]

end ScanScope

/-! ### Jobs -/

theorem Metered.onWorld_of_run {σ α : Type} {action : Action σ α} {metered : Metered σ}
    {outcome : Result α} {after : σ} (ran : action metered.world = (outcome, after)) :
    Metered.onWorld action metered = (outcome, { metered with world := after }) := by
  rw [Metered.onWorld, Action.within_apply, ran]

/-- How the work on a key may change its row: from the first to the second one, given the slices and
how the work ended. -/
abbrev RowChanges := Bytes → RowSlices → Handled → Row → Row → Prop

def RowChanges.any : RowChanges := fun _ _ _ _ _ => True

def ScanJob.Starts {σ ω : Type} {scanner : Scanner σ} (job : ScanJob σ ω)
    (view : ScanView scanner) (worker : ω) : Prop :=
  ∃ jobSettings graphSettings before metered, view.ready metered.world ∧
    (job.start jobSettings graphSettings before metered).1 = .ok worker

/-- The work on a row, if it changes only this row. -/
structure ScanView.Works {σ : Type} {scanner : Scanner σ} (view : ScanView scanner) (key : Bytes)
    (change : Row → Row → Prop) (before after : σ) : Prop where
  ready : view.ready after
  own : change (Table.row (view.table before) key) (Table.row (view.table after) key)
  others : ∀ other, other ≠ key →
    Table.row (view.table after) other = Table.row (view.table before) other
  cancelled : scanner.isCancelled before = true → scanner.isCancelled after = true

/-- A job with the given scope that changes a row only when it is called for its key. Each of its
operations may fail at any time. -/
structure ScanWork {σ ω : Type} {scanner : Scanner σ} (view : ScanView scanner)
    (job : ScanJob σ ω) (scope : ScanScope) (changes : RowChanges) : Prop where
  queries : ∀ worker, job.Starts view worker → job.queries worker = scope.driver :: scope.others
  filters : ∀ worker state, job.Starts view worker → view.ready state →
    job.filter worker state = scope.filter
  creates : ∀ state, view.ready state → view.Keeps state (job.create state).2
  starts : ∀ jobSettings graphSettings worker (metered : Metered σ), view.ready metered.world →
    view.Keeps metered.world (job.start jobSettings graphSettings worker metered).2.world
  processes : ∀ worker key slices (metered : Metered σ), job.Starts view worker →
    view.ready metered.world →
    view.Works key (changes key slices (job.process worker key slices metered).1) metered.world
      (job.process worker key slices metered).2.world
  finishes : ∀ worker (metered : Metered σ), view.ready metered.world →
    view.Keeps metered.world (job.finish worker metered).2.world

/-! ### Slices of a row -/

namespace RowSlices

/-- The slices are those asked for, each of them once, as the table shows them. -/
structure Show (table : Table) (key : Bytes) (asked : List Slice) (found : RowSlices) : Prop where
  once : (found.map Prod.fst).Nodup
  members : ∀ slice entries,
    (slice, entries) ∈ found ↔ slice ∈ asked ∧ entries = Table.slice table key slice

theorem show_nil (table : Table) (key : Bytes) : Show table key [] [] := by
  constructor
  · exact List.nodup_nil
  · intro slice entries
    simp

theorem Show.put {table : Table} {key : Bytes} {asked : List Slice} {found : RowSlices}
    (shown : Show table key asked found) (slice : Slice) :
    Show table key (asked ++ [slice]) (found.put slice (Table.slice table key slice)) := by
  unfold RowSlices.put
  constructor
  · have others : ((found.filter fun other => other.1 ≠ slice).map Prod.fst).Nodup :=
      shown.once.sublist (List.filter_sublist.map Prod.fst)
    rw [List.map_cons, List.nodup_cons]
    refine ⟨?_, others⟩
    simp
  · intro other entries
    rw [List.mem_cons, List.mem_filter, shown.members other entries, List.mem_append,
      List.mem_singleton]
    by_cases same : other = slice
    · simp [same]
    · simp [same]

/-- One slice that was asked for is the only one found. -/
theorem Show.eq_singleton {table : Table} {key : Bytes} {slice : Slice} {found : RowSlices}
    (shown : Show table key [slice] found) : found = [(slice, Table.slice table key slice)] := by
  have member : (slice, Table.slice table key slice) ∈ found :=
    (shown.members _ _).2 ⟨List.mem_singleton_self slice, rfl⟩
  have same : ∀ pair ∈ found, pair = (slice, Table.slice table key slice) := by
    intro pair listed
    obtain ⟨asked, entries⟩ := (shown.members pair.1 pair.2).1 listed
    rw [List.mem_singleton.1 asked] at entries
    exact Prod.ext (List.mem_singleton.1 asked) entries
  cases found with
  | nil => exact absurd member List.not_mem_nil
  | cons first rest =>
      cases rest with
      | nil => rw [same first List.mem_cons_self]
      | cons second rest =>
          have equal : first.1 = second.1 := by
            rw [same first List.mem_cons_self,
              same second (List.mem_cons_of_mem _ List.mem_cons_self)]
          apply absurd shown.once
          simp [equal]

end RowSlices

end GraphStore
