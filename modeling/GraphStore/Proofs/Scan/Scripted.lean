import GraphStore.Proofs.Scan.Accounting
import GraphStore.Proofs.Scan.Work
import GraphStore.Scan.Script

/-!
Contract: jobs that follow a script do what a scan expects of its job.

Owns what a scripted job does to the state (`Script.process_apply`), which concerns its notes and
named counters only, and the laws of jobs for it (`Script.work`, `Script.leavesTotals`), on any
backend.
-/

namespace GraphStore

namespace Script

section

variable {σ : Type} (script : Script) (notes : Part σ ScriptNotes)

/-- The work on a key crashes, or is noted and comes to what the script says. -/
theorem process_apply (key : Bytes) (slices : RowSlices) (metered : Metered σ) :
    script.process notes key slices metered =
      if script.crashKeys.contains key then (.crashed, metered)
      else
        let marked := if script.cancelKey = some key then cancel notes metered else metered
        let noted := note notes key slices marked
        if script.failKeys.contains key then (.failed (.temporary "injected"), noted)
        else (.done, noted.count (script.countKey slices)) := by
  unfold process
  by_cases crashes : script.crashKeys.contains key = true
  · rw [if_pos crashes, if_pos crashes]
    rfl
  · rw [if_neg crashes, if_neg crashes]
    by_cases cancels : script.cancelKey = some key <;>
      by_cases fails : script.failKeys.contains key = true <;>
      simp only [cancels, fails, if_true, if_false] <;> rfl

theorem start_apply (jobSettings graphSettings : Configuration) (metered : Metered σ) :
    (script.job notes).start jobSettings graphSettings () metered =
      match script.startFailure with
      | some failure => (.error failure, metered)
      | none => (.ok (), metered.count fun metrics =>
          addWeight graphSettings (addWeight jobSettings metrics)) := by
  unfold job raise
  cases script.startFailure <;> rfl

theorem finish_apply (metered : Metered σ) :
    (script.job notes).finish () metered =
      (match script.finishFailure with
        | some failure => .error failure
        | none => .ok (),
      metered.count fun metrics => metrics.add "worker-ends" 1) := by
  unfold job raise
  cases script.finishFailure <;> rfl

theorem sameTotals_addWeight (settings : Configuration) (metrics : ScanMetrics) :
    metrics.SameTotals (addWeight settings metrics) := by
  unfold addWeight
  split
  · exact .add _ _ _
  · exact .refl _

/-- A script counts in counters of its own. -/
theorem leavesTotals : (script.job notes).LeavesTotals where
  start jobSettings graphSettings worker metered := by
    rw [start_apply]
    cases script.startFailure with
    | some failure => exact .refl _
    | none =>
        exact (sameTotals_addWeight jobSettings metered.metrics).trans
          (sameTotals_addWeight graphSettings _)
  process worker key slices metered := by
    show metered.metrics.SameTotals (script.process notes key slices metered).2.metrics
    rw [process_apply]
    have marked : metered.metrics.SameTotals
        (if script.cancelKey = some key then cancel notes metered else metered).metrics := by
      split <;> exact .refl _
    split
    · exact .refl _
    · dsimp only
      split
      · exact marked
      · apply marked.trans
        show ScanMetrics.SameTotals _ (script.countKey slices _)
        unfold countKey
        cases script.counter <;> exact ⟨rfl, rfl⟩
  finish worker metered := by
    rw [finish_apply]
    exact .refl _

end

/-! ### Scans -/

section

variable {σ : Type} {scanner : Scanner σ} {view : ScanView scanner} {notes : Part σ ScriptNotes}

/-- A scripted job works on its notes, so it is a job for every store that has nothing to do with
them. -/
theorem work (script : Script) {driver : Slice} {others : List Slice}
    (queries : script.queries = driver :: others)
    (apart : ∀ state noted, ((notes.view state).cancelled = true → noted.cancelled = true) →
      view.Keeps state (notes.replace state noted)) :
    ScanWork view (script.job notes) ⟨driver, others, script.filter⟩ .any where
  queries _ _ := queries
  filters _ _ _ _ := rfl
  creates state isReady := by
    show view.Keeps state (raise script.createFailure state).2
    cases script.createFailure <;> exact .refl state
  starts jobSettings graphSettings worker metered isReady := by
    rw [start_apply]
    cases script.startFailure <;> exact .refl _
  processes worker key slices metered started isReady := by
    have noted : ∀ before : Metered σ,
        view.Keeps before.world (note notes key slices before).world := fun before =>
      apart before.world _ id
    have keeps : view.Keeps metered.world (script.process notes key slices metered).2.world := by
      rw [process_apply]
      have marked : view.Keeps metered.world
          (if script.cancelKey = some key then cancel notes metered else metered).world := by
        split
        · exact apart metered.world _ fun _ => rfl
        · exact .refl _
      split
      · exact .refl _
      · dsimp only
        split <;> exact marked.trans (noted _)
    refine ⟨keeps.ready isReady, trivial, ?_, keeps.cancelled⟩
    intro other _
    exact congrArg (fun table => Table.row table other) keeps.table
  finishes worker metered isReady := by
    rw [finish_apply]
    exact .refl _

end

variable {τ : Type} {manager : Manager τ}

/-- A scanner over a backend beside the notes of scripted jobs, through which it is cancelled. -/
def scanner (manager : Manager τ) (options : ScanOptions) : Scanner (τ × ScriptNotes) :=
  ⟨Part.first.manager manager, options, fun state => state.2.cancelled⟩

/-- A store of a backend beside the notes of scripted jobs. -/
def scanStore (backend : ScanBackend manager) (options : ScanOptions) (name : String)
    (reference : StoreRef) : ScanStore (scanner manager options) reference :=
  backend.scanStore Part.first options (fun state : τ × ScriptNotes => state.2.cancelled) name
    reference fun _ => True

/-- Notes are no concern of the backend. -/
theorem keeps_notes (backend : ScanBackend manager) (options : ScanOptions) (name : String)
    (reference : StoreRef) (state : τ × ScriptNotes) (noted : ScriptNotes)
    (cancelled : state.2.cancelled = true → noted.cancelled = true) :
    (scanStore backend options name reference).Keeps state (state.1, noted) :=
  ⟨id, rfl, cancelled⟩

end Script

end GraphStore
