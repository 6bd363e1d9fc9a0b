import GraphStore.Proofs.Scan.Steady

/-!
Contract: what a scan leaves behind outside of the table that it walks over.

Owns the steps that can change something there: the calls of the job and no other ones
(`ScanPlan.WorkerStep.spares`). What a part of the state shows at the end of a scan all of whose
calls are done is what the calls make of it one after another, in the order in which they were made
(`ScanWorld.Steps.shown_eq`).
-/

namespace GraphStore

/-- Reads of the store change nothing at all. -/
structure ScanStore.Still {σ : Type} {scanner : Scanner σ} {reference : StoreRef}
    (store : ScanStore scanner reference) : Prop where
  starts : ∀ state, store.ready state → (scanner.manager.startScan reference state).2 = state
  pages : ∀ state range slice after size, store.ready state →
    (scanner.manager.scanPage reference range slice after size state).2 = state
  reads : ∀ state key slice, store.ready state →
    (scanner.manager.getSlice reference key slice state).2 = state

/-- The chores of the job change nothing that the scan is run on. -/
structure ScanJob.Still {σ ω : Type} {scanner : Scanner σ} (job : ScanJob σ ω)
    (view : ScanView scanner) : Prop where
  creates : ∀ state, view.ready state → (job.create state).2 = state
  starts : ∀ jobSettings graphSettings worker (metered : Metered σ), view.ready metered.world →
    (job.start jobSettings graphSettings worker metered).2.world = metered.world
  finishes : ∀ worker (metered : Metered σ), view.ready metered.world →
    (job.finish worker metered).2.world = metered.world

/-- The stores of an open backend are still. -/
theorem ScanBackend.still_scanStore {σ τ : Type} {manager : Manager σ}
    (backend : ScanBackend manager) (part : Part τ σ) (options : ScanOptions)
    (isCancelled : τ → Bool) (name : String) (store : StoreRef) (also : τ → Prop) :
    (backend.scanStore part options isCancelled name store also).Still where
  starts whole isReady := by
    show (part.run (manager.startScan store) whole).2 = whole
    rw [Part.run_apply, ← isReady.2.1, backend.admits _ name isReady.1, part.replace_view]
  pages whole range slice after size isReady := by
    show (part.run (manager.scanPage store range slice after size) whole).2 = whole
    rw [Part.run_apply, ← isReady.2.1, backend.pages _ name range slice after size isReady.1,
      part.replace_view]
  reads whole key slice isReady := by
    show (part.run (manager.getSlice store key slice) whole).2 = whole
    rw [Part.run_apply, ← isReady.2.1, backend.reads _ name key slice isReady.1,
      part.replace_view]

/-- What is said of a state goes on to hold, whatever the reads of the store and the chores of the
job do to it. -/
structure ScanPlan.Spares {σ ω : Type} (plan : ScanPlan σ ω) (holds : σ → Prop) : Prop where
  starts : ∀ state, holds state → holds (plan.scanner.manager.startScan plan.store state).2
  pages : ∀ state range slice after size, holds state →
    holds (plan.scanner.manager.scanPage plan.store range slice after size state).2
  reads : ∀ state key slice, holds state →
    holds (plan.scanner.manager.getSlice plan.store key slice state).2
  creates : ∀ state, holds state → holds (plan.job.create state).2
  begins : ∀ worker (metered : Metered σ), holds metered.world →
    holds (plan.job.start plan.jobSettings plan.graphSettings worker metered).2.world
  finishes : ∀ worker (metered : Metered σ), holds metered.world →
    holds (plan.job.finish worker metered).2.world

theorem ScanPlan.spares_of_still {σ ω : Type} {plan : ScanPlan σ ω}
    {store : ScanStore plan.scanner plan.store} (still : store.Still)
    (idle : plan.job.Still store.toScanView) {holds : σ → Prop}
    (isReady : ∀ state, holds state → store.ready state) : plan.Spares holds where
  starts state held := by
    rw [still.starts state (isReady state held)]
    exact held
  pages state range slice after size held := by
    rw [still.pages state range slice after size (isReady state held)]
    exact held
  reads state key slice held := by
    rw [still.reads state key slice (isReady state held)]
    exact held
  creates state held := by
    rw [idle.creates state (isReady state held)]
    exact held
  begins worker metered held := by
    rw [idle.starts _ _ worker metered (isReady metered.world held)]
    exact held
  finishes worker metered held := by
    rw [idle.finishes worker metered (isReady metered.world held)]
    exact held

/-- A request for a row fetches pages and does nothing else. -/
theorem Pager.next_keeps {σ : Type} {holds : σ → Prop} {fetch : PageSource σ}
    (pages : ∀ state after size, holds state → holds (fetch after size state).2) (fuel : Nat)
    (pager : Pager) {state : σ} (held : holds state) :
    holds (next fetch fuel pager state).2.2 := by
  induction fuel generalizing pager state with
  | zero => exact held
  | succ fuel inductionHypothesis =>
      cases limit : pager.selector.reachedLimit with
      | true =>
          rw [next_of_full limit]
          exact held
      | false =>
      rcases draw_cases limit pager.buffered with ⟨_, row, back, _, _, _, drew⟩ | ⟨_, drew⟩
      · rw [next_of_buffered limit drew]
        exact held
      cases used : pager.exhausted with
      | true =>
          rw [next_of_exhausted limit drew used]
          exact held
      | false =>
      have kept := pages state pager.lastKey pager.pageSize held
      rcases fetched : fetch pager.lastKey pager.pageSize state with ⟨_ | page, left⟩
      · rw [fetched] at kept
        rw [next_of_failed limit drew used fetched]
        exact kept
      · rw [fetched] at kept
        rw [next_of_fetched limit drew used fetched]
        split
        · exact kept
        · exact inductionHypothesis _ kept

namespace ScanPlan

variable {σ ω : Type} {plan : ScanPlan σ ω} {holds : σ → Prop} {phase after : WorkerPhase ω}
  {shared sharedAfter : ScanShared σ}

theorem Spares.openBatch (spares : plan.Spares holds) (setup : WorkerSetup ω) (range : KeyRange)
    {state : σ} (held : holds state) :
    holds (plan.scanner.openBatch plan.store setup range state).2 := by
  unfold Scanner.openBatch
  cases Selector.new setup.filter plan.scanner.options.keysPerBatch with
  | error failure => exact held
  | ok selector =>
      have selected : (Action.ofResult (.ok selector) : Action σ Selector) state =
          (.ok selector, state) := rfl
      rw [Action.bind_of_ok selected, Manager.getKeys, Action.bind_pure_apply]
      exact spares.starts state held

/-- A step notes no call and spares what is said of the state, or it calls the job for a row. -/
theorem WorkerStep.spares (spares : plan.Spares holds)
    (step : plan.WorkerStep phase shared after sharedAfter)
    (walks : ∀ setup batch, phase = .walking setup batch → batch.walk.store = plan.store)
    (held : holds shared.world) :
    sharedAfter.calls = shared.calls ∧ holds sharedAfter.world ∨
      ∃ setup batch row found ending metered, phase = .reading setup batch row found [] ∧
        plan.job.process setup.worker row.key (found.put setup.driver row.entries)
          shared.metered = (ending, metered) ∧
        sharedAfter =
          (shared.withMetered metered).handle (ScanPlan.call setup batch row found ending) := by
  cases step with
  | created ran =>
      have kept := spares.creates shared.world held
      rw [ran] at kept
      exact .inl ⟨rfl, kept⟩
  | uncreated ran =>
      have kept := spares.creates shared.world held
      rw [ran] at kept
      exact .inl ⟨ScanShared.calls_fail _ _, kept⟩
  | @started _ worker ready left ran =>
      have kept := spares.begins worker shared.metered held
      rw [ran] at kept
      exact .inl ⟨rfl, kept⟩
  | @unstarted _ worker failure left ran =>
      have kept := spares.begins worker shared.metered held
      rw [ran] at kept
      exact .inl ⟨ScanShared.calls_fail _ _, kept⟩
  | @opened _ setup part range walk left ran =>
      have kept := spares.openBatch setup range held
      rw [ran] at kept
      exact .inl ⟨rfl, kept⟩
  | @unopened _ setup part range failure left ran =>
      have kept := spares.openBatch setup range held
      rw [ran] at kept
      exact .inl ⟨ScanShared.calls_fail _ _, kept⟩
  | @drew _ setup batch row walk left ran =>
      have pages : ∀ state after size, holds state → holds (plan.scanner.manager.scanPage
          batch.walk.store batch.walk.range batch.walk.slice after size state).2 := by
        rw [walks setup batch rfl]
        exact fun state after size => spares.pages state _ _ after size
      have kept := Pager.next_keeps pages
        (plan.scanner.manager.rowCount batch.walk.store shared.world + 2) batch.walk.pager held
      have left : _ = left := congrArg (fun result => result.2.2) ran
      exact .inl ⟨rfl, left ▸ kept⟩
  | @read _ setup batch row found slice left entries last ran =>
      have kept := spares.reads shared.world row.key slice held
      rw [ran] at kept
      exact .inl ⟨rfl, kept⟩
  | @unread _ setup batch row found slice left failure last ran =>
      have kept := spares.reads shared.world row.key slice held
      rw [ran] at kept
      exact .inl ⟨ScanShared.calls_fail _ _, kept⟩
  | handled ran survived => exact .inr ⟨_, _, _, _, _, _, rfl, ran, rfl⟩
  | crashed ran => exact .inr ⟨_, _, _, _, _, _, rfl, ran, rfl⟩
  | @finished _ worker released left ran =>
      have kept := spares.finishes worker shared.metered held
      rw [ran] at kept
      exact .inl ⟨rfl, kept⟩
  | @unfinished _ worker failure left ran =>
      have kept := spares.finishes worker shared.metered held
      rw [ran] at kept
      exact .inl ⟨ScanShared.calls_fail _ _, kept⟩
  | unequipped queries => exact .inl ⟨ScanShared.calls_fail _ _, held⟩
  | stuck next => exact .inl ⟨ScanShared.calls_fail _ _, held⟩
  | broke running => exact .inl ⟨ScanShared.calls_fail _ _, held⟩
  | _ => exact .inl ⟨rfl, held⟩

end ScanPlan

namespace ScanWorld

variable {σ ω α : Type} {plan : ScanPlan σ ω} {store : ScanStore plan.scanner plan.store}
  {scope : ScanScope} {changes : RowChanges} {world : ScanWorld σ ω} {initial : σ}
  {interferes : σ → σ → Prop} {shown : σ → α} {effect : Bytes → RowSlices → α → α}

/-- The surroundings and everything but the calls of the job leave alone what is shown; a call that
is done has its effect on it. -/
structure Affects (plan : ScanPlan σ ω) (view : ScanView plan.scanner)
    (interferes : σ → σ → Prop) (shown : σ → α) (effect : Bytes → RowSlices → α → α) : Prop where
  spares : ∀ value, plan.Spares fun state => view.ready state ∧ shown state = value
  keeps : ∀ before after, interferes before after → view.Keeps before after
  unmoved : ∀ before after, interferes before after → shown after = shown before
  calls : ∀ worker key slices (metered : Metered σ), plan.job.Starts view worker →
    view.ready metered.world → (plan.job.process worker key slices metered).1 = .done →
    shown (plan.job.process worker key slices metered).2.world =
      effect key slices (shown metered.world)

/-- If all calls are done, what shows is their effects in the order of the calls. -/
theorem Steps.shown_eq (affects : Affects plan store.toScanView interferes shown effect)
    (work : ScanWork store.toScanView plan.job scope changes) (apart : plan.Apart)
    (isReady : store.ready initial) (steps : Steps plan interferes (start plan initial) world)
    (done : ∀ call ∈ world.shared.calls, call.ending = .done) :
    shown world.shared.world =
      world.shared.calls.foldl (fun value call => effect call.key call.slices value)
        (shown initial) := by
  induction steps with
  | refl => rfl
  | tail steps step inductionHypothesis =>
      cases step with
      | interference allowed =>
          have before := inductionHypothesis done
          exact (affects.unmoved _ _ allowed).trans before
      | @worker index phase after shared present step =>
          have sound := (steps.mono affects.keeps).sound work apart isReady
          have good := sound.phases index phase present
          have walks : ∀ setup batch, phase = .walking setup batch →
              batch.walk.store = plan.store := by
            rintro setup batch rfl
            exact good.2.2.1.store
          rcases step.spares (affects.spares _) walks ⟨sound.ledger.ready, rfl⟩ with
            ⟨calls, -, same⟩ | ⟨setup, batch, row, found, ending, metered, rfl, ran, rfl⟩
          · dsimp only at done ⊢
            rw [calls] at done ⊢
            exact same.trans (inductionHypothesis done)
          · dsimp only at done ⊢
            rw [ScanShared.calls_handle] at done ⊢
            have ended : ending = .done :=
              done _ (List.mem_append_right _ (List.mem_singleton_self _))
            have acted := affects.calls setup.worker row.key
              (found.put setup.driver row.entries) _ good.1.starts sound.ledger.ready
              (by rw [ran]; exact ended)
            rw [ran] at acted
            rw [List.foldl_append]
            refine Eq.trans acted (congrArg _ (inductionHypothesis ?_))
            intro call member
            exact done call (List.mem_append_left _ member)

end ScanWorld

end GraphStore
