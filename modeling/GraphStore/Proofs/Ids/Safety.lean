import GraphStore.Proofs.Ids.Allocation

/-!
Contract: any number of authorities over one store grant disjoint blocks.

Owns what is safe about a moment (`World.Safe`) and about an event (`World.SafeStep`). Both backends
are safe from an empty table on, whatever opens, closes, asks, fails or interleaves
(`World.blocks_safe`).
-/

namespace GraphStore

namespace World

variable {σ : Type} {manager : Manager σ} {name : String}

/-- What holds at every moment. -/
structure Safe (store : IdStore manager name) (world : World σ) : Prop where
  disjoint : (world.granted.map Prod.snd).Pairwise fun earlier later =>
    earlier.overlaps later = false
  shaped : ∀ grant ∈ world.granted, grant.1.Fits grant.2
  /-- A cell holds the end of the last block written above it. -/
  cells : ∀ partitionId namespaceId, store.cell world partitionId namespaceId =
    (world.written partitionId namespaceId).getLast?.map fun block => Bytes.ofUInt64 block.stop
  /-- Where every write has been acknowledged, the granted blocks leave no gaps. -/
  gapless : ∀ partitionId namespaceId,
    (∀ swap ∈ world.swaps, swap.block.isOf partitionId namespaceId = true →
      swap.acknowledged = true) →
    Tiles 0 (world.grantedOf partitionId namespaceId)
      (store.watermark world partitionId namespaceId)

structure SafeStep (store : IdStore manager name) (world : World σ) (event : IdEvent)
    (after : World σ) : Prop where
  rises : ∀ partitionId namespaceId, store.watermark world partitionId namespaceId ≤
    store.watermark after partitionId namespaceId
  /-- An attempt changes no cell but its own. -/
  isolated : ∀ partitionId namespaceId,
    (∀ attempt, world.attempt? event = some attempt →
      (partitionId, namespaceId) ≠ (attempt.partitionId, attempt.namespaceId)) →
    store.cell after partitionId namespaceId = store.cell world partitionId namespaceId
  exhausted : EndsRightly store world after
  /-- An attempt above the bound whose reading goes through ends for want of identifiers. -/
  exhausts : ∀ index attempt, event = .bid index .none → world.attempts[index]? = some attempt →
    attempt.bid = none →
    (manager.getSlice attempt.authority.store attempt.key
      (Slice.ofPrefix IdAuthority.watermarkColumn) world.state).1.isOk = true →
    Exceeds store world attempt →
      after.ended = world.ended ++ [(attempt, .error attempt.exhaustion)]
  /-- An attempt whose cell is still the one read gets its block, where the write goes through. -/
  grants : ∀ index attempt bid, event = .redeemed index .none →
    world.attempts[index]? = some attempt → attempt.bid = some bid →
    store.cell world attempt.partitionId attempt.namespaceId = bid.cell →
    (attempt.authority.redeem manager attempt.partitionId attempt.namespaceId bid
      world.state).1.isOk = true →
      after.granted = world.granted ++ [(attempt, attempt.block bid)]

/-- Blocks of one partition and namespace that have been written follow one another. -/
theorem Sound.ordered_swaps {store : IdStore manager name} {world : World σ}
    (sound : world.Sound store) :
    (world.swaps.map Swap.block).Pairwise fun earlier later =>
      earlier.isOf later.partitionId later.namespaceId = true → earlier.stop ≤ later.start := by
  rw [List.pairwise_iff_forall_sublist]
  intro earlier later ordered own
  have ownToo : later.isOf later.partitionId later.namespaceId = true := IdBlock.isOf_iff.2 rfl
  have within := ordered.filter fun block => block.isOf later.partitionId later.namespaceId
  rw [List.filter_cons, if_pos own, List.filter_cons, if_pos ownToo, List.filter_nil] at within
  have rising : ∀ block ∈ world.written later.partitionId later.namespaceId,
      block.start ≤ block.stop := by
    intro block member
    obtain ⟨swap, recorded, rfl⟩ := List.mem_map.1 (List.mem_filter.1 member).1
    exact sound.rising swap recorded
  have inOrder := (sound.tiled later.partitionId later.namespaceId).pairwise rising
  exact List.pairwise_iff_forall_sublist.1 inOrder within

/-- Blocks of writes that have taken effect never overlap. -/
theorem Sound.disjoint_swaps {store : IdStore manager name} {world : World σ}
    (sound : world.Sound store) :
    (world.swaps.map Swap.block).Pairwise fun earlier later =>
      earlier.overlaps later = false := by
  refine sound.ordered_swaps.imp fun {earlier later} ordered => ?_
  cases overlapping : earlier.overlaps later with
  | false => rfl
  | true =>
      simp only [IdBlock.overlaps, Bool.and_eq_true, decide_eq_true_eq] at overlapping
      obtain ⟨⟨⟨samePartition, sameNamespace⟩, _⟩, meets⟩ := overlapping
      have own : earlier.isOf later.partitionId later.namespaceId = true :=
        IdBlock.isOf_iff.2 (by rw [samePartition, sameNamespace])
      exact absurd meets (UInt64.not_lt.2 (ordered own))

/-- Where every write of a partition and namespace has been acknowledged, what is written there is
granted. -/
theorem Sound.grantedOf_eq {store : IdStore manager name} {world : World σ}
    (sound : world.Sound store) {partitionId namespaceId : UInt32}
    (told : ∀ swap ∈ world.swaps, swap.block.isOf partitionId namespaceId = true →
      swap.acknowledged = true) :
    world.grantedOf partitionId namespaceId = world.written partitionId namespaceId := by
  rw [grantedOf, written, sound.told, List.filter_map, List.filter_map, List.filter_filter]
  congr 1
  apply List.filter_congr
  intro swap recorded
  cases own : swap.block.isOf partitionId namespaceId with
  | false => simp [own]
  | true => simp [own, told swap recorded own]

/-- Where the record of writes is sound, everything that is to hold of the blocks holds. -/
theorem Sound.safe {store : IdStore manager name} {world : World σ} (sound : world.Sound store) :
    Safe store world where
  disjoint := by
    rw [sound.told]
    exact sound.disjoint_swaps.sublist (List.filter_sublist.map Swap.block)
  shaped := sound.shaped
  cells := sound.cells
  gapless partitionId namespaceId told := by
    rw [sound.grantedOf_eq told]
    exact sound.tiled partitionId namespaceId

/-- An attempt that reads a watermark with no block above it ends so. -/
theorem Sound.stepBid_exhausted {store : IdStore manager name} {world : World σ}
    (sound : world.Sound store) {attempt : Attempt}
    (known : attempt.Sound (store.reference world.state))
    (readable : (manager.getSlice attempt.authority.store attempt.key
      (Slice.ofPrefix IdAuthority.watermarkColumn) world.state).1.isOk = true)
    (exceeds : Exceeds store world attempt) (index : Nat) :
    (world.stepBid manager index attempt .none).ended =
      world.ended ++ [(attempt, .error attempt.exhaustion)] := by
  rcases store.reads world.state attempt.key (Slice.ofPrefix IdAuthority.watermarkColumn) with
    shown | ⟨failure, failed, _⟩
  · rw [← known.store] at shown
    have called := sound.bid_of_shown shown
    rw [IdAuthority.blockEnd?_eq_none_iff.2 exceeds] at called
    rw [stepBid, Glitch.around, called]
    rfl
  · rw [known.store, failed] at readable
    exact absurd readable Bool.false_ne_true

/-- An attempt whose cell nobody has changed gets its block. -/
theorem stepRedeem_granted {store : IdStore manager name} {world : World σ} {attempt : Attempt}
    (known : attempt.Sound (store.reference world.state)) {bid : Bid}
    (found : store.cell world attempt.partitionId attempt.namespaceId = bid.cell)
    (writable : (attempt.authority.redeem manager attempt.partitionId attempt.namespaceId bid
      world.state).1.isOk = true) (index : Nat) :
    (world.stepRedeem manager index attempt bid .none).granted =
      world.granted ++ [(attempt, attempt.block bid)] := by
  obtain ⟨outcome, after, called, _, result⟩ := redeem_result store world known bid
  rw [called] at writable
  rw [stepRedeem_eq called]
  generalize store.table after = table at result
  cases result with
  | written _ => exact granted_finish world index attempt _ after
  | lost other => exact absurd found other
  | failed foreign => exact absurd writable Bool.false_ne_true

/-- Where the record of writes is sound, every event does what it should. -/
theorem Sound.safeStep {store : IdStore manager name} {world : World σ}
    (sound : world.Sound store) (event : IdEvent) :
    SafeStep store world event (world.step manager name event) := by
  have result := sound.step_result event
  constructor
  case rises =>
    intro partitionId namespaceId
    cases result with
    | quiet kept table swaps granted =>
        rw [watermark_of_table table]
        exact UInt64.le_refl _
    | wrote kept concerned write =>
        rename_i attempt bid acknowledged
        by_cases same : (partitionId, namespaceId) = (attempt.partitionId, attempt.namespaceId)
        · obtain ⟨rfl, rfl⟩ := Prod.mk.inj same
          rw [write.watermark_eq, ← write.start_eq]
          exact write.start_le_stop
        · rw [write.watermark_of_ne same]
          exact UInt64.le_refl _
  case isolated =>
    intro partitionId namespaceId foreign
    cases result with
    | quiet kept table swaps granted => exact cell_of_table table partitionId namespaceId
    | wrote kept concerned write => exact write.cell_of_ne (foreign _ concerned)
  case exhausted =>
    cases result with
    | quiet kept table swaps granted => exact kept.exhausted
    | wrote kept concerned write => exact kept.exhausted
  case exhausts =>
    rintro index attempt rfl found unplaced readable exceeds
    have known := sound.bidding attempt (List.mem_of_getElem? found)
    rw [World.step]
    simp only [found, unplaced]
    exact sound.stepBid_exhausted known readable exceeds index
  case grants =>
    rintro index attempt bid rfl found placed same writable
    have known := sound.bidding attempt (List.mem_of_getElem? found)
    rw [World.step]
    simp only [found, placed]
    exact stepRedeem_granted known same writable index

/-- From an empty table on, in either backend, every moment and every event is safe. -/
theorem blocks_safe (name : String) (events : List IdEvent) (event : IdEvent) :
    (∀ memory : Memory, Tables.table memory.stores.current name = .empty →
      let world := (start memory).run Memory.manager name events
      Safe (Memory.idStore name) world ∧
        SafeStep (Memory.idStore name) world event (world.step Memory.manager name event)) ∧
    (∀ embedded : Embedded, Tables.table embedded.stores.current name = .empty →
      let world := (start embedded).run Embedded.manager name events
      Safe (Embedded.idStore name) world ∧
        SafeStep (Embedded.idStore name) world event (world.step Embedded.manager name event)) := by
  constructor
  · intro memory empty world
    have started : (start memory).Sound (Memory.idStore name) := sound_start empty
    have sound : world.Sound (Memory.idStore name) := started.run events
    exact ⟨sound.safe, sound.safeStep event⟩
  · intro embedded empty world
    have started : (start embedded).Sound (Embedded.idStore name) := sound_start empty
    have sound : world.Sound (Embedded.idStore name) := started.run events
    exact ⟨sound.safe, sound.safeStep event⟩

/-- Two authorities contend for a block, one is not told of the next, closes and asks again, and
the other asks for what is left. -/
def contendedRun : List IdEvent :=
  [.opened (.uniform 10 100) .standard, .opened (.uniform 5 22) .standard,
    .admitted 0 1 2, .admitted 1 1 2, .bid 0 .none, .bid 1 .none, .redeemed 0 .none,
    .redeemed 0 .none, .admitted 0 1 2, .bid 0 .none, .redeemed 0 (.after "late"), .closed 0,
    .admitted 0 1 2, .admitted 1 1 7, .bid 0 .none, .redeemed 0 .none, .admitted 1 1 2]

/-- A backend over a new log, of which the second record cannot be synced. -/
def falteringBackend : Embedded :=
  ⟨.ofTables .empty,
    LogWriter.new ⟨[], 0, [.succeeds, .succeeds, .succeeds, .fails 0], none, true⟩ 0 0 true, false,
    ⟨0, 0, 0⟩, none⟩

theorem blocks_safe_contendedRun :
    let memory := (start Memory.empty).run Memory.manager "ids" contendedRun
    let embedded := (start falteringBackend).run Embedded.manager "ids" contendedRun
    (memory.swaps.length = 3 ∧ embedded.swaps.length = 2) ∧
      (Safe (Memory.idStore "ids") memory ∧
        SafeStep (Memory.idStore "ids") memory (.bid 0 .none)
          (memory.step Memory.manager "ids" (.bid 0 .none))) ∧
      Safe (Embedded.idStore "ids") embedded ∧
        SafeStep (Embedded.idStore "ids") embedded (.bid 0 .none)
          (embedded.step Embedded.manager "ids" (.bid 0 .none)) := by
  intro memory embedded
  have written : memory.swaps.length = 3 ∧ embedded.swaps.length = 2 := by decide +kernel
  obtain ⟨inMemory, withLog⟩ := blocks_safe "ids" contendedRun (.bid 0 .none)
  exact ⟨written, inMemory .empty rfl, withLog falteringBackend rfl⟩

end World

end GraphStore
