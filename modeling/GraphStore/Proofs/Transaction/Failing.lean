import GraphStore.Proofs.Manager.Fallible
import GraphStore.Proofs.Transaction.Rereading

/-!
Contract: what a commit that fails leaves behind.

Owns the flush over a manager that may fail at any point (`FallibleManager`): it stops in one store,
which the failure names, behind a front of the staged rows, and no slice of a staged row of that
store or of an earlier one is left in the caches (`FailedFlush`). Main statement: `commit_failed`,
which says the same of each row.
-/

namespace GraphStore

/-! ### A front of pending mutations -/

namespace StoreMutations

variable {pending front : StoreMutations}
  {earlier later : List (String × OrderedMap Bytes Mutation)} {store : String}
  {rows reached : OrderedMap Bytes Mutation} {made unmade : List (Bytes × Mutation)}

/-- The stores around one lie on either side of it. -/
theorem around (stores : pending.entries = earlier ++ (store, rows) :: later) :
    earlier.Pairwise (fun left right => left.1 < right.1) ∧
      (∀ entry ∈ earlier, entry.1 < store) ∧ ∀ entry ∈ later, store < entry.1 := by
  have ascending := pending.ascending
  rw [stores, List.pairwise_append, List.pairwise_cons] at ascending
  obtain ⟨ofEarlier, ⟨above, -⟩, below⟩ := ascending
  exact ⟨ofEarlier, fun entry member => below entry member _ List.mem_cons_self, above⟩

/-- The stores in front of one, and a front of its rows, are pending mutations too. -/
theorem exists_front (stores : pending.entries = earlier ++ (store, rows) :: later)
    (ofStore : rows.entries = made ++ unmade) :
    ∃ (front : StoreMutations) (reached : OrderedMap Bytes Mutation),
      front.entries = earlier ++ [(store, reached)] ∧ reached.entries = made := by
  obtain ⟨ofEarlier, below, -⟩ := around stores
  have ascendingRows := rows.ascending
  rw [ofStore, List.pairwise_append] at ascendingRows
  refine ⟨⟨earlier ++ [(store, ⟨made, ascendingRows.1⟩)], ?_⟩, _, rfl, rfl⟩
  refine List.pairwise_append.2 ⟨ofEarlier, List.pairwise_singleton _ _, ?_⟩
  intro entry member last ofLast
  rw [List.mem_singleton.1 ofLast]
  exact below entry member

/-- What a front of pending mutations holds of a row. -/
theorem mutationOf_front (stores : pending.entries = earlier ++ (store, rows) :: later)
    (ofStore : rows.entries = reached.entries ++ unmade)
    (fronts : front.entries = earlier ++ [(store, reached)]) (name : String) (key : Bytes) :
    mutationOf front name key =
      if name < store ∨ name = store ∧ key ∈ reached.keys then mutationOf pending name key
      else .empty := by
  obtain ⟨-, below, above⟩ := around stores
  have absent : ¬ name < store → earlier.lookup name = none := by
    intro notBelow
    refine List.lookup_eq_none_iff.2 fun entry member => bne_iff_ne.2 ?_
    rintro rfl
    exact notBelow (below entry member)
  rw [mutationOf, mutationOf, OrderedMap.find?, OrderedMap.find?, stores, fronts,
    List.lookup_append, List.lookup_append]
  by_cases inEarlier : name < store
  -- only the earlier stores can hold the name, and both maps have all of them
  · have behind : ∀ entry ∈ (store, rows) :: later, name < entry.1 := by
      refine List.forall_mem_cons.2 ⟨inEarlier, fun entry member => ?_⟩
      exact Std.lt_trans inEarlier (above entry member)
    rw [if_pos (Or.inl inEarlier), OrderedMap.lookup_eq_none_of_below behind,
      OrderedMap.lookup_eq_none_of_below (List.forall_mem_singleton.2 inEarlier)]
  · rw [absent inEarlier, Option.none_or, Option.none_or, List.lookup_cons, List.lookup_cons]
    by_cases same : name = store
    · subst same
      rw [beq_self_eq_true]
      show (reached.find? key).getD .empty =
        if _ ∨ _ ∧ _ then (rows.find? key).getD .empty else _
      rw [OrderedMap.find?_front ofStore]
      by_cases listed : key ∈ reached.keys
      · rw [if_pos listed, if_pos (Or.inr ⟨rfl, listed⟩)]
      · rw [if_neg listed, if_neg (not_or.2 ⟨inEarlier, fun both => listed both.2⟩)]
        rfl
    · rw [beq_eq_false_iff_ne.2 same, if_neg (not_or.2 ⟨inEarlier, fun both => same both.1⟩)]
      rfl

theorem mem_earlier (stores : pending.entries = earlier ++ (store, rows) :: later) {name : String}
    {staged : OrderedMap Bytes Mutation} (found : pending.find? name = some staged)
    (less : name < store) : (name, staged) ∈ earlier := by
  obtain ⟨-, -, above⟩ := around stores
  have member := OrderedMap.find?_eq_some_iff.1 found
  rw [stores, List.mem_append, List.mem_cons] at member
  rcases member with inEarlier | same | inLater
  · exact inEarlier
  · rw [(Prod.mk.inj same).1] at less
    exact absurd less Std.lt_irrefl
  · exact absurd (Std.lt_trans less (above _ inLater)) Std.lt_irrefl

/-- The row changes of some stores, and of a front of the rows of the next one, reach the rows they
are pending for and no others. -/
theorem row_front (stores : pending.entries = earlier ++ (store, rows) :: later)
    (ofStore : rows.entries = made ++ unmade) (tables : Tables) (name : String) (key : Bytes) :
    Tables.row (Log.applyAll
        (earlier.flatMap (fun store => StoreCall.batchRows store.1 store.2.entries) ++
          StoreCall.batchRows store made) tables) name key =
      if name < store ∨ name = store ∧ key ∈ made.map Prod.fst then
        (mutationOf pending name key).applyTo (Tables.row tables name key)
      else Tables.row tables name key := by
  obtain ⟨front, reached, fronts, rfl⟩ := exists_front stores ofStore
  have changes := row_rowChanges front tables name key
  rw [rowChanges, fronts, List.flatMap_append, List.flatMap_cons, List.flatMap_nil,
    List.append_nil, mutationOf_front stores ofStore fronts] at changes
  refine changes.trans ?_
  split <;> rename_i inFront
  · exact (if_pos inFront).symm
  · exact (if_neg inFront).symm

end StoreMutations

namespace Transaction

open CachedStores

variable {σ : Type} {manager : Manager σ} (fallible : FallibleManager manager)

/-! ### The rows of one store -/

theorem naming_names {store : String} {failure : StoreError} (names : failure.NamesNoOther store) :
    (naming store failure).Names store := by
  unfold naming
  split
  · rename_i isPersistence
    cases failure with
    | persistence other source => exact ⟨source, by rw [names other source rfl]⟩
    | _ => exact nomatch isPersistence
  · exact ⟨failure, rfl⟩

theorem works_flushBatches (name : String) {parts : List (List (Bytes × Mutation))}
    (filled : ∀ rows ∈ parts, rows ≠ [])
    (ascending : ∀ rows ∈ parts, rows.Pairwise (fun left right => left.1 < right.1)) (state : σ) :
    fallible.Works (StoreError.Names name) (flushBatches manager name parts) state
      (StoreCall.batchRows name parts.flatten) := by
  induction parts generalizing state with
  | nil => exact .nothing _ state
  | cons rows parts inductionHypothesis =>
      obtain ⟨firstFilled, othersFilled⟩ := List.forall_mem_cons.1 filled
      obtain ⟨firstAscending, othersAscending⟩ := List.forall_mem_cons.1 ascending
      have entries := entries_ofList firstAscending
      have first := fallible.mutatesMany state name (OrderedMap.ofList rows)
        (by rw [entries]; exact firstFilled)
      rw [entries] at first
      rw [StoreCall.batchRows, List.flatten_cons, List.map_append]
      exact (first.mapError (naming name) fun _ => naming_names).andThen fun after _ =>
        inductionHypothesis othersFilled othersAscending after

/-- The rows of a store, in batches or one by one. -/
theorem works_writeStore (size : Nat) (name : String) (rows : OrderedMap Bytes Mutation)
    (state : σ) :
    fallible.Works (StoreError.Names name)
      (writeStore manager size name (fallible.refer state name) rows.entries) state
      (StoreCall.batchRows name rows.entries) := by
  rw [writeStore]
  split
  · have filled : ∀ part ∈ chunks size rows.entries, part ≠ [] := fun part member =>
      List.ne_nil_of_length_pos (length_of_mem_chunks size rows.entries part member).1
    have written := works_flushBatches fallible name filled
      (fun part member => ascending_of_mem_chunks member) state
    rwa [flatten_chunks] at written
  · exact fallible.works_writeEach name rows.entries state

/-! ### One store -/

section Flush

variable (stripe : Bytes → Stripe) (size : Nat)

/-- Acquiring a handle gives the one that the pool has for the store, new or not, or fails when it
has none. The tables stay as they are. -/
theorem store_result {world : CachePool × σ}
    (refers : world.1.Refers (fallible.refer world.2)) (name : String) :
    ∃ after, fallible.tables after = fallible.tables world.2 ∧
      fallible.refer after = fallible.refer world.2 ∧
      ((pooled manager stripe).store name world =
          (.ok (world.1.adopt name (fallible.refer world.2 name)).1,
            ((world.1.adopt name (fallible.refer world.2 name)).2, after)) ∨
        world.1.find? name = none ∧ ∃ failure,
          (pooled manager stripe).store name world = (.error failure, (world.1, after))) := by
  obtain ⟨pool, state⟩ := world
  cases found : pool.find? name with
  | some handle =>
      refine ⟨state, rfl, rfl, Or.inl ?_⟩
      rw [store_of_found stripe found, CachePool.adopt, found]
  | none =>
      obtain ⟨outcome, after, opened, tables, refer, ofStore, -⟩ := fallible.opens state name
      refine ⟨after, tables, refer, ?_⟩
      cases outcome with
      | ok store =>
          obtain rfl := ofStore store rfl
          exact Or.inl (store_of_opened stripe found opened)
      | error failure => exact Or.inr ⟨rfl, failure, store_of_unopened stripe found opened⟩

/-- What the flush of one store comes to: its rows are worked off and dropped from the caches, or
the store cannot be opened. -/
inductive StoreFlush (view : StoresView σ) (name : String) (rows : OrderedMap Bytes Mutation)
    (before : CachePool × σ) : Result Unit → CachePool × σ → Prop where
  | worked {outcome : Result Unit} {after : CachePool × σ}
      (made : view.Made before.2 (StoreCall.batchRows name rows.entries) outcome after.2)
      (flushed : before.1.Flushed after.1 (view.refer before.2) [(name, rows)]) :
      StoreFlush view name rows before outcome after
  | unopened {failure : StoreError} {after : CachePool × σ} (absent : before.1.find? name = none)
      (pool : after.1 = before.1) (tables : view.tables after.2 = view.tables before.2) :
      StoreFlush view name rows before (.error failure) after

theorem flushStore_result {world : CachePool × σ}
    (refers : world.1.Refers (fallible.refer world.2)) (name : String)
    (rows : OrderedMap Bytes Mutation) :
    ∃ outcome after, flushStore (pooled manager stripe) size name rows world = (outcome, after) ∧
      after.1.Refers (fallible.refer after.2) ∧
      (∀ failure, outcome = .error failure → failure.Names name) ∧
      StoreFlush fallible.toStoresView name rows world outcome after := by
  obtain ⟨acquiring, tables, refer, acquired | ⟨absent, failure, unopened⟩⟩ :=
    store_result fallible stripe refers name
  · obtain ⟨ofStore, adopted⟩ := refers.adopt name
    obtain ⟨outcome, after, written, made, names⟩ :=
      works_writeStore fallible size name rows acquiring
    rw [refer, ← ofStore] at written
    have step : fallible.Made world.2 [] (.ok ()) acquiring := .all tables refer
    refine ⟨_, _, flushStore_pooled stripe size name rows acquired written, ?_, names,
      .worked (step.behind made) (world.1.flushed_invalidateAll stripe _ name rows)⟩
    rw [made.refer_eq, refer]
    exact adopted.invalidateAll stripe _ rows.keys
  · refine ⟨_, _, Action.bind_of_error (Action.mapError_of_error unopened), ?_, ?_,
      .unopened absent rfl tables⟩
    · rw [refer]
      exact refers
    · rintro named same
      exact ⟨failure, (Except.error.inj same).symm⟩

/-! ### All stores -/

/-- What a flush that fails leaves: all rows of the stores in front of the one that the failure
names are written and dropped from the caches, and so is a front of the rows of that store; no row
of it is in the caches. -/
inductive FailedFlush (view : StoresView σ) (before : CachePool × σ) :
    List (String × OrderedMap Bytes Mutation) → StoreError → CachePool × σ → Prop where
  | stopped {earlier later : List (String × OrderedMap Bytes Mutation)} {name : String}
      {rows : OrderedMap Bytes Mutation} {made unmade : List (Bytes × Mutation)}
      {source : StoreError} {after : CachePool × σ}
      (entries : rows.entries = made ++ unmade) (short : rows.entries ≠ [] → unmade ≠ [])
      (tables : view.tables after.2 = Log.applyAll
        (earlier.flatMap (fun store => StoreCall.batchRows store.1 store.2.entries) ++
          StoreCall.batchRows name made) (view.tables before.2))
      (flushed : before.1.Flushed after.1 (view.refer before.2) earlier)
      (dropped : ∀ key ∈ rows.keys, ∀ handle, after.1.find? name = some handle →
        after.1.Lacks handle key) :
      FailedFlush view before (earlier ++ (name, rows) :: later) (.persistence name source) after

variable {view : StoresView σ} {name : String} {rows : OrderedMap Bytes Mutation}
  {before middle after : CachePool × σ} {failure : StoreError}
  {stores : List (String × OrderedMap Bytes Mutation)}

/-- The flush of the store that fails. -/
theorem StoreFlush.failed (flush : StoreFlush view name rows before (.error failure) after)
    (names : failure.Names name) (later : List (String × OrderedMap Bytes Mutation)) :
    FailedFlush view before ((name, rows) :: later) failure after := by
  obtain ⟨source, rfl⟩ := names
  rw [← List.nil_append ((name, rows) :: later)]
  cases flush with
  -- without a handle nothing of the store is cached, and nothing becomes so
  | unopened absent pool tables =>
      refine .stopped (List.nil_append _).symm id tables ?_ fun key _ handle found => ?_
      · rw [pool]
        exact .refl _ _
      · rw [pool, absent] at found
        exact nomatch found
  -- all rows of the store are dropped from the caches, those not written too
  | worked made flushed =>
      obtain ⟨front, change, rest, changes, tables⟩ := made.tables_of_error
      obtain ⟨written, unwritten, entries, remains, rfl⟩ := StoreCall.rows_of_front changes
      refine .stopped entries (fun _ => remains) tables
        ⟨flushed.kept, flushed.resolve, flushed.lacking, nofun⟩ fun key listed handle found => ?_
      obtain ⟨own, ofName, lacks⟩ := flushed.dropped _ List.mem_cons_self key listed
      obtain rfl := Option.some.inj (ofName.symm.trans found)
      exact lacks

/-- The flush of a store in front of one that fails. -/
theorem FailedFlush.behind
    (made : view.Made before.2 (StoreCall.batchRows name rows.entries) (.ok ()) middle.2)
    (front : before.1.Flushed middle.1 (view.refer before.2) [(name, rows)])
    (failed : FailedFlush view middle stores failure after) :
    FailedFlush view before ((name, rows) :: stores) failure after := by
  cases failed with
  | stopped entries short tables flushed dropped =>
      rw [made.refer_eq] at flushed
      rw [← List.cons_append]
      refine .stopped entries short ?_ (front.trans flushed) dropped
      rw [tables, made.tables_of_ok, ← Log.applyAll_append, List.flatMap_cons, List.append_assoc]

/-- A flush that fails stops in one store. -/
theorem flush_failed (stores : List (String × OrderedMap Bytes Mutation))
    {world after : CachePool × σ} (refers : world.1.Refers (fallible.refer world.2))
    {failure : StoreError}
    (ran : flush (pooled manager stripe) size stores world = (.error failure, after)) :
    FailedFlush fallible.toStoresView world stores failure after := by
  induction stores generalizing world with
  | nil => exact nomatch congrArg Prod.fst ran
  | cons store stores inductionHypothesis =>
      obtain ⟨outcome, middle, flushed, stillRefers, names, result⟩ :=
        flushStore_result fallible stripe size refers store.1 store.2
      cases outcome with
      | error other =>
          have stopped : flush (pooled manager stripe) size (store :: stores) world =
              (.error other, middle) :=
            Action.bind_of_error flushed
          rw [ran] at stopped
          obtain ⟨same, rfl⟩ := Prod.mk.inj stopped
          obtain rfl := Except.error.inj same
          exact result.failed (names failure rfl) stores
      | ok done =>
          have others :
              flush (pooled manager stripe) size stores middle = (.error failure, after) :=
            (Action.bind_of_ok flushed).symm.trans ran
          cases result with
          | worked made dropped =>
              exact .behind made dropped (inductionHypothesis stillRefers others)

end Flush

/-! ### Commits -/

/-- Every call is refused and changes nothing. -/
structure RefusesAll (transaction : Transaction) : Prop where
  mutate : ∀ store key additions deletions,
    transaction.mutate store key additions deletions = .error (.closed .transaction)
  getSlice : ∀ {τ : Type} (stores : CachedStores τ) store key slice whole,
    transaction.getSlice stores store key slice whole = (.error (.closed .transaction), whole)
  commit : ∀ {τ : Type} (stores : CachedStores τ) whole,
    transaction.commit stores whole = ((.error (.closed .transaction), transaction), whole)
  rollback : transaction.rollback = .error (.closed .transaction)

/-- A transaction that is over refuses every call. -/
theorem refusesAll_of_not_isOpen {transaction : Transaction}
    (notOpen : transaction.isOpen = false) : transaction.RefusesAll := by
  have refused : transaction.ensureOpen = .error (.closed .transaction) := by
    rw [ensureOpen, notOpen]
    rfl
  refine ⟨fun store key additions deletions => ?_, fun stores store key slice whole => ?_,
    fun stores whole => ?_, ?_⟩
  · rw [mutate, refused]
    rfl
  · exact Action.bind_of_error (by rw [refused]; rfl)
  · rw [commit, refused]
  · rw [rollback, refused]
    rfl

/-- What a commit leaves that stopped in the store, behind the rows `made` of those staged for it.
-/
structure StoppedAt (view : StoresView σ) (pending : StoreMutations) (store : String)
    (rows : OrderedMap Bytes Mutation) (made : List (Bytes × Mutation))
    (before after : CachePool × σ) : Prop where
  staged : pending.find? store = some rows
  front : made <+: rows.entries
  short : rows.entries ≠ [] → made ≠ rows.entries
  written : ∀ name key, name < store ∨ name = store ∧ key ∈ made.map Prod.fst →
    Tables.row (view.tables after.2) name key =
      (StoreMutations.mutationOf pending name key).applyTo
        (Tables.row (view.tables before.2) name key)
  unwritten : ∀ name key, store < name ∨ name = store ∧ key ∉ made.map Prod.fst →
    Tables.row (view.tables after.2) name key = Tables.row (view.tables before.2) name key
  uncached : ∀ name staged, pending.find? name = some staged → name < store ∨ name = store →
    ∀ key ∈ staged.keys, ∀ handle, after.1.find? name = some handle → after.1.Lacks handle key

theorem FailedFlush.stoppedAt {view : StoresView σ} {pending : StoreMutations}
    {before after : CachePool × σ} {failure : StoreError}
    (failed : FailedFlush view before pending.entries failure after) :
    ∃ store source rows made, failure = .persistence store source ∧
      StoppedAt view pending store rows made before after := by
  generalize stores : pending.entries = entries at failed
  cases failed with
  | stopped ofStore short tables flushed dropped =>
      rename_i earlier later store rows made unmade source
      have staged : pending.find? store = some rows :=
        OrderedMap.find?_eq_some_iff.2 (stores ▸ List.mem_append_right _ List.mem_cons_self)
      have reached := StoreMutations.row_front stores ofStore (view.tables before.2)
      rw [← tables] at reached
      refine ⟨store, source, rows, made, rfl, staged, ⟨unmade, ofStore.symm⟩, ?_, ?_, ?_, ?_⟩
      · intro filled all
        rw [ofStore] at all
        exact short filled (List.self_eq_append_right.1 all)
      · intro name key inFront
        rw [reached, if_pos inFront]
      · intro name key behind
        rw [reached, if_neg]
        rintro (less | ⟨rfl, listed⟩)
        · rcases behind with greater | ⟨rfl, -⟩
          · exact Std.lt_irrefl (Std.lt_trans less greater)
          · exact Std.lt_irrefl less
        · rcases behind with greater | ⟨-, absent⟩
          · exact Std.lt_irrefl greater
          · exact absent listed
      · intro name others found inFront key listed handle ofName
        rcases inFront with less | rfl
        · have inEarlier := StoreMutations.mem_earlier stores found less
          obtain ⟨own, ofOwn, lacks⟩ := flushed.dropped _ inEarlier key listed
          obtain rfl := Option.some.inj (ofOwn.symm.trans ofName)
          exact lacks
        · obtain rfl := Option.some.inj (staged.symm.trans found)
          exact dropped key listed handle ofName

/-- What a failed commit comes to: the failure names the store that it stopped in, and the
transaction is over. -/
structure FailedCommit (view : StoresView σ) (transaction : Transaction) (before : CachePool × σ)
    (failure : StoreError) (ended : Transaction) (after : CachePool × σ) : Prop where
  stopped : ∃ store source rows made, failure = .persistence store source ∧
    StoppedAt view transaction.pending store rows made before after
  isFailed : ended.state = .failed
  refuses : ended.RefusesAll

/-- A commit that fails, in batches of any size or row by row, names a staged store and leaves a
front of the staged rows: those of the stores in front of it, and its own up to the one that is not
written. No slice of these rows, nor of the other staged rows of the store, is in the caches, and
the transaction is over. -/
theorem commit_failed (stripe : Bytes → Stripe) {transaction ended : Transaction}
    (running : transaction.state = .running) {before after : CachePool × σ}
    (refers : before.1.Refers (fallible.refer before.2)) {failure : StoreError}
    (failed : transaction.commit (pooled manager stripe) before =
      ((.error failure, ended), after)) :
    FailedCommit fallible.toStoresView transaction before failure ended after := by
  rw [commit_of_running running] at failed
  rcases ran : flush (pooled manager stripe) transaction.bufferSize transaction.pending.entries
    before with ⟨outcome, left⟩
  rw [ran] at failed
  obtain ⟨rfl, rfl⟩ := Prod.mk.inj (Prod.mk.inj failed).1
  obtain rfl : left = after := (Prod.mk.inj failed).2
  exact ⟨(flush_failed fallible stripe _ _ refers ran).stoppedAt, rfl, refusesAll_of_not_isOpen rfl⟩

/-- Five rows of three stores, with batches of two rows. -/
def threeStores : Transaction :=
  { start 2 with
    pending := [("t", 1), ("s", 2), ("a", 1), ("s", 1), ("s", 3)].foldl
      (fun pending row => stageRow pending row.1 [row.2] (.ofParts [⟨[7], [row.2]⟩] [[8]])) .empty }

/-- A backend in memory of whose openings and writes the fifth one fails. -/
def fifthCallFails : List (Option String) × Memory :=
  ([none, none, none, none, some "disk full"], .empty)

/-- A backend with a log whose third write fails on the way. -/
def thirdWriteFails : Embedded :=
  ⟨.ofTables .empty, LogWriter.new ⟨[], 0, [.succeeds, .succeeds, .fails 5], none, true⟩ 0 0 false,
    false, ⟨0, 0, 0⟩, none⟩

/-- In batches and row by row. -/
theorem commit_failed_threeStores :
    (∃ ended after,
      threeStores.commit (pooled Memory.manager.interrupted Stripe.ofKey)
          (.empty 4, fifthCallFails) =
        ((.error (.persistence "s" (.temporary "disk full")), ended), after) ∧
      FailedCommit Memory.fallible.interrupted.toStoresView threeStores (.empty 4, fifthCallFails)
        (.persistence "s" (.temporary "disk full")) ended after) ∧
    ∃ failure ended after,
      threeStores.commit (pooled (Embedded.manager.configured false false) Stripe.ofKey)
          (.empty 4, thirdWriteFails) = ((.error failure, ended), after) ∧
      FailedCommit Embedded.storesView threeStores (.empty 4, thirdWriteFails) failure ended
        after := by
  constructor
  · have failed : (threeStores.commit (pooled Memory.manager.interrupted Stripe.ofKey)
        (.empty 4, fifthCallFails)).1.1 =
          .error (.persistence "s" (.temporary "disk full")) := by
      with_unfolding_all rfl
    rcases committed : threeStores.commit (pooled Memory.manager.interrupted Stripe.ofKey)
      (.empty 4, fifthCallFails) with ⟨⟨outcome, ended⟩, after⟩
    rw [committed] at failed
    obtain rfl : outcome = _ := failed
    exact ⟨ended, after, rfl, commit_failed Memory.fallible.interrupted Stripe.ofKey rfl
      (CachePool.refers_empty 4) committed⟩
  · have failed : (threeStores.commit (pooled (Embedded.manager.configured false false)
        Stripe.ofKey) (.empty 4, thirdWriteFails)).1.1.isOk = false := by
      decide +kernel
    rcases committed : threeStores.commit (pooled (Embedded.manager.configured false false)
      Stripe.ofKey) (.empty 4, thirdWriteFails) with ⟨⟨failure | done, ended⟩, after⟩
    · exact ⟨failure, ended, after, rfl,
        commit_failed (Embedded.fallible.configured (fun _ _ => rfl) false false) Stripe.ofKey rfl
          (CachePool.refers_empty 4) committed⟩
    · rw [committed] at failed
      exact nomatch failed

end Transaction

end GraphStore
