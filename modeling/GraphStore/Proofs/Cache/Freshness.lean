import GraphStore.Proofs.Cache.Calls

/-!
Contract: no read of a row is answered with less than the writes that have returned.

Owns what becomes of a read whatever happens around it: it keeps its row, its slice and the writes
that it began behind, it can always go on to an answer unless the store fails, and its answer is the
slice of a state that has all those writes. Calls one after the other answer as the store itself.
-/

namespace GraphStore

namespace CacheWorld

variable {capacity : Nat} {stripe : Bytes → Stripe} {world after : CacheWorld} {index : Nat}
  {reader : CacheReader}

/-! ### A read among others -/

/-- A step of some read keeps everything but the phase of every read. -/
theorem reader_readerTo {other : Nat} {moved : CacheReader}
    (isMoved : world.readers[other]? = some moved) (phase : ReadPhase)
    (present : world.readers[index]? = some reader) :
    ∃ phase', (world.readerTo other moved phase).readers[index]? =
      some { reader with phase := phase' } := by
  show ∃ phase', (world.readers.set other _)[index]? = _
  by_cases same : other = index
  · subst same
    obtain rfl := Option.some.inj (present.symm.trans isMoved)
    exact ⟨phase, List.getElem?_set_self (List.getElem?_eq_some_iff.1 present).1⟩
  · exact ⟨reader.phase, (List.getElem?_set_ne same).trans present⟩

theorem Step.keeps_reader (step : Step capacity stripe world after)
    (present : world.readers[index]? = some reader) :
    ∃ phase, after.readers[index]? = some { reader with phase := phase } := by
  -- A new read goes behind the others, and no step takes one away.
  cases step with
  | began key slice =>
      have inside := (List.getElem?_eq_some_iff.1 present).1
      exact ⟨reader.phase, (List.getElem?_append_left inside).trans present⟩
  | bypassed off moved | hit caching moved | missed caching moved | loaded moved | failed moved
  | filled moved | handedOn moved => exact reader_readerTo moved _ present
  | evicted | opened | wrote | finished | invalidated | returned | cleared =>
      exact ⟨reader.phase, present⟩

theorem Steps.keeps_reader (steps : Steps capacity stripe world after)
    (present : world.readers[index]? = some reader) :
    ∃ phase, after.readers[index]? = some { reader with phase := phase } := by
  induction steps with
  | refl => exact ⟨reader.phase, present⟩
  | tail _ step inductionHypothesis =>
      obtain ⟨_, still⟩ := inductionHypothesis
      obtain ⟨phase, moved⟩ := step.keeps_reader still
      exact ⟨phase, moved⟩

/-! ### Going on -/

/-- The read of the given place has been answered. -/
def Answered (world : CacheWorld) (index : Nat) (entries : List Entry) : Prop :=
  ∃ reader, world.readers[index]? = some reader ∧ reader.phase = .answered entries

/-- The store has failed the read of the given place. -/
def Failed (world : CacheWorld) (index : Nat) : Prop :=
  ∃ reader, world.readers[index]? = some reader ∧ reader.phase = .failed

theorem getElem?_readerTo (present : world.readers[index]? = some reader) (phase : ReadPhase) :
    (world.readerTo index reader phase).readers[index]? = some { reader with phase := phase } :=
  List.getElem?_set_self (List.getElem?_eq_some_iff.1 present).1

theorem answers_of_loaded {seen : Option Nat} {entries : List Entry}
    (present : world.readers[index]? = some reader) (phase : reader.phase = .loaded seen entries) :
    ∃ final, Steps capacity stripe world final ∧ final.Answered index entries := by
  cases seen with
  | none =>
      exact ⟨_, (Step.handedOn present phase).once, _, getElem?_readerTo present _, rfl⟩
  | some seen => exact ⟨_, (Step.filled present phase).once, _, getElem?_readerTo present _, rfl⟩

theorem answers_of_missed {seen : Option Nat} (present : world.readers[index]? = some reader)
    (phase : reader.phase = .missed seen) :
    ∃ final entries, Steps capacity stripe world final ∧ final.Answered index entries := by
  obtain ⟨final, steps, answered⟩ := answers_of_loaded (getElem?_readerTo present _) rfl
  exact ⟨final, _, (Step.loaded present phase).once.trans steps, answered⟩

/-- A read that the store has not failed can go on to an answer, with no step of another. -/
theorem answers (present : world.readers[index]? = some reader) (unfailed : ¬ world.Failed index) :
    ∃ final entries, Steps capacity stripe world final ∧ final.Answered index entries := by
  cases phase : reader.phase with
  | asking =>
      by_cases caching : 0 < capacity
      · rcases looked : world.cache.lookup reader.key reader.slice with ⟨_ | entries, cache⟩
        · let seen := cache.epoch (stripe reader.key)
          let missed : CacheWorld :=
            { world.readerTo index reader (.missed (some seen)) with cache := cache }
          have still : missed.readers[index]? =
              some { reader with phase := .missed (some seen) } := getElem?_readerTo present _
          obtain ⟨final, entries, steps, answered⟩ := answers_of_missed still rfl
          exact ⟨final, entries, (Step.missed caching present phase looked).once.trans steps,
            answered⟩
        · exact ⟨_, entries, (Step.hit caching present phase looked).once, _,
            getElem?_readerTo present _, rfl⟩
      · have off : capacity = 0 := Nat.eq_zero_of_not_pos caching
        obtain ⟨final, entries, steps, answered⟩ :=
          answers_of_missed (getElem?_readerTo present _) rfl
        exact ⟨final, entries, (Step.bypassed off present phase).once.trans steps, answered⟩
  | missed seen => exact answers_of_missed present phase
  | loaded seen entries =>
      obtain ⟨final, steps, answered⟩ := answers_of_loaded present phase
      exact ⟨final, entries, steps, answered⟩
  | answered entries => exact ⟨world, entries, .refl, reader, present, phase⟩
  | failed => exact absurd ⟨reader, present, phase⟩ unfailed

/-! ### Freshness -/

/-- An answered read is fresh: it has seen every write that had returned before it began. -/
theorem Sound.answered (sound : after.Sound capacity stripe) {writes : List RowWrite}
    {key : Bytes} {slice : Slice} {entries : List Entry} {phase : ReadPhase}
    (present : after.readers[index]? = some ⟨key, slice, writes, phase⟩)
    (answered : after.Answered index entries) : after.FreshAt writes key slice entries := by
  obtain ⟨reader, found, answered⟩ := answered
  obtain rfl := Option.some.inj (present.symm.trans found)
  exact sound.goodPhase present answered

end CacheWorld

open CachedStores CacheWorld

namespace CacheWorld

/-- A read that begins when a write of its row has returned is answered with the slice of a state at
or behind that write, whatever the reads, calls and commits around it do and in whatever order
their steps fall; and it is answered, unless the store fails it. Calls that follow one another take
such steps, and answer as the bare store does. -/
theorem reads_fresh {σ : Type} {manager : Manager σ} (backend : TableBackend manager)
    (capacity : Nat) (stripe : Bytes → Stripe) :
    (∀ (table : Table) (world : CacheWorld), Steps capacity stripe (start table) world →
      ∀ (key : Bytes) (slice : Slice) (after : CacheWorld),
        Steps capacity stripe (world.begun key slice) after →
        (∀ entries, after.Answered world.readers.length entries →
          after.FreshAt world.returned key slice entries) ∧
        (¬ after.Failed world.readers.length → ∃ final entries,
          Steps capacity stripe after final ∧ final.Answered world.readers.length entries)) ∧
    (∀ (name : String) (state : σ), backend.isOpen state = true →
      ∃ handle pool, (pooled manager stripe).store name (.empty capacity, state) =
          (.ok handle, (pool, state)) ∧
        ∀ calls : List RowCall,
          let cached := RowCall.performAll (RowCall.perform (pooled manager stripe) name handle)
            calls (pool, state)
          let bare := RowCall.performAll (RowCall.performBare manager name handle.store) calls state
          let table := Tables.table (backend.tables state) name
          cached.1 = bare.1 ∧ cached.2.2 = bare.2 ∧
            ∃ world, Steps capacity stripe (start table) world ∧
              Stands capacity backend.toTableView name handle world cached.2.1 cached.2.2) := by
  refine ⟨fun table world steps key slice after others => ?_, fun name state isOpen => ?_⟩
  · have began : Step capacity stripe world (world.begun key slice) := .began world key slice
    have sound : after.Sound capacity stripe :=
      (((sound_start table).steps steps).step began).steps others
    obtain ⟨phase, present⟩ := others.keeps_reader (world.last_reading key slice .asking)
    exact ⟨fun entries answered => sound.answered present answered,
      fun unfailed => answers present unfailed⟩
  · obtain ⟨handle, pool, acquired, ready, stands⟩ :=
      ready_of_new backend capacity stripe isOpen name
    refine ⟨handle, pool, acquired, fun calls => ?_⟩
    obtain ⟨left, ran⟩ := ready.performAll stripe calls
    have steps := ready.steps_performAll stands stripe calls
    rw [ran] at steps ⊢
    exact ⟨rfl, rfl, steps⟩

def oneCell : Table := Table.change .empty [1] [⟨[1], [7]⟩] []

/-- A read loads the cell, a writer changes it and returns, and only then the read fills. -/
theorem steps_staleFill :
    ∃ world, Steps 1 (fun _ => 0) (start oneCell) world ∧ world.cache.slices = [] ∧
      world.table = Table.change oneCell [1] [⟨[1], [8]⟩] [] ∧ world.returned = [⟨[1], 1⟩] := by
  have began : Step 1 (fun _ => 0) (start oneCell) _ := .began _ [1] ⟨[1], [9], none⟩
  have loaded : Steps 1 (fun _ => 0) ((start oneCell).begun [1] ⟨[1], [9], none⟩) _ :=
    steps_loaded _ _ _ Nat.zero_lt_one rfl
  have own : ∀ change ∈ [(⟨"s", [1], [⟨[1], [8]⟩], []⟩ : RowChange)], change.key ∈ [[1]] := by
    decide
  obtain ⟨world, wrote, cache, table, readers, returned⟩ := steps_writer _ own
  have written := (began.once.trans loaded).trans wrote
  have present : world.readers[0]? =
      some ⟨[1], ⟨[1], [9], none⟩, [], .loaded (some 0) [⟨[1], [7]⟩]⟩ := by
    rw [readers]
    rfl
  refine ⟨_, written.tail (.filled present rfl), ?_, table, returned⟩
  show (world.cache.fill 1 0 0 _).slices = []
  rw [cache]
  rfl

/-- A read, a write, a read, a failed and a done exchange, a commit and two reads. -/
def mixedCalls : List RowCall :=
  [.getSlice [1] ⟨[1], [9], none⟩, .mutate [1] [⟨[1], [7]⟩] [], .getSlice [1] ⟨[1], [9], none⟩,
    .compareAndSwap [1] [1] none [8], .compareAndSwap [1] [1] (some [7]) [8],
    .flush 1 (OrderedMap.empty.insert [1] (.ofParts [⟨[2], [9]⟩] [])),
    .getSlice [1] ⟨[1], [9], none⟩, .getSlice [1] ⟨[1], [9], none⟩]

/-- Behind a stale fill and the write that has overtaken it, a read is answered with the write; and
mixed calls through a cache of one slice answer as on the store in memory. -/
theorem reads_fresh_staleFill :
    (∃ world after, Steps 1 (fun _ => 0) (start oneCell) world ∧ world.returned = [⟨[1], 1⟩] ∧
      Steps 1 (fun _ => 0) (world.begun [1] ⟨[1], [9], none⟩) after ∧
      after.Answered world.readers.length [⟨[1], [8]⟩] ∧
      after.FreshAt [⟨[1], 1⟩] [1] ⟨[1], [9], none⟩ [⟨[1], [8]⟩]) ∧
    Memory.tableBackend.isOpen .empty = true ∧
      ∃ handle pool, (pooled Memory.manager fun _ => 0).store "s" (.empty 1, .empty) =
          (.ok handle, (pool, .empty)) ∧
        (RowCall.performAll (RowCall.perform (pooled Memory.manager fun _ => 0) "s" handle)
            mixedCalls (pool, .empty)).1 =
          [.ok (.entries []), .ok .done, .ok (.entries [⟨[1], [7]⟩]), .ok (.swapped false),
            .ok (.swapped true), .ok .done, .ok (.entries [⟨[1], [8]⟩, ⟨[2], [9]⟩]),
            .ok (.entries [⟨[1], [8]⟩, ⟨[2], [9]⟩])] := by
  obtain ⟨interleaved, sequential⟩ := reads_fresh Memory.tableBackend 1 fun _ => 0
  refine ⟨?_, rfl, ?_⟩
  · obtain ⟨world, steps, slices, table, returned⟩ := steps_staleFill
    have notHeld : world.cache.find? [1] ⟨[1], [9], none⟩ = none := by
      rw [Cache.find?, slices]
      rfl
    have absent : world.cache.lookup [1] ⟨[1], [9], none⟩ =
        (none, { world.cache with misses := world.cache.misses + 1 }) := by
      rw [Cache.lookup, notHeld]
    have others : Steps 1 (fun _ => 0) (world.begun [1] ⟨[1], [9], none⟩) _ :=
      world.steps_missed [1] ⟨[1], [9], none⟩ Nat.zero_lt_one absent
    have answered := world.last_reading [1] ⟨[1], [9], none⟩
      (.answered (Table.slice world.table [1] ⟨[1], [9], none⟩))
    have shown : Table.slice world.table [1] ⟨[1], [9], none⟩ = [⟨[1], [8]⟩] := by
      rw [table]
      rfl
    rw [shown] at answered others
    obtain ⟨fresh, -⟩ := interleaved oneCell world steps [1] ⟨[1], [9], none⟩ _ others
    rw [returned] at fresh
    exact ⟨world, _, steps, returned, others, ⟨_, answered, rfl⟩, fresh _ ⟨_, answered, rfl⟩⟩
  · obtain ⟨handle, pool, acquired, runs⟩ := sequential "s" .empty rfl
    obtain ⟨replies, -⟩ := runs mixedCalls
    have isHandle : handle = ⟨⟨"s", 0⟩, 0⟩ := by
      have opened : (pooled Memory.manager fun _ => 0).store "s" (.empty 1, .empty) =
          (.ok ⟨⟨"s", 0⟩, 0⟩, ((CachePool.empty 1).adopt "s" ⟨"s", 0⟩).2, .empty) := rfl
      exact Except.ok.inj (Prod.mk.inj (acquired.symm.trans opened)).1
    subst isHandle
    refine ⟨_, pool, acquired, replies.trans ?_⟩
    with_unfolding_all rfl

end CacheWorld

end GraphStore
