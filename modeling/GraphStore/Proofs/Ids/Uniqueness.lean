import GraphStore.Proofs.Ids.Pooling

/-!
Contract: pools hand out every identifier of a partition and namespace at most once.

Owns what ties a pool to the blocks it has received (`SharedPool.Sound`, `PoolWorld.Sound`), and
what is safe about pools over authorities that grant in order (`PoolWorld.Safe`), as the authorities
over either backend do from an empty table on (`PoolWorld.ids_unique`).
-/

namespace GraphStore

/-! ### What a pool has received -/

namespace SharedPool

/-- What has been handed out are all identifiers of the blocks received before the last one, and
those of the last one that lie below the next. -/
inductive Drained (shared : SharedPool) : Prop where
  | fresh (received : shared.received = []) (issued : shared.issued = [])
  | drawing {earlier : List Receipt} {last : Receipt}
      (received : shared.received = earlier ++ [last])
      (above : last.block.start ≤ shared.pool.next) (below : shared.pool.next ≤ last.block.stop)
      (issued : shared.issued =
        earlier.flatMap (fun receipt => receipt.block.idsBelow receipt.block.stop) ++
          last.block.idsBelow shared.pool.next)

/-- A pool draws on the last block it has received, all of them from its authority, and waits for
another one only when none is left. -/
structure Sound {σ : Type} (ids : World σ) (shared : SharedPool) : Prop where
  known : ∃ sizer, ids.sizer? shared.authority = some sizer
  granted : ∀ receipt ∈ shared.received, ∃ attempt,
    ids.grantAt? receipt.place = some (attempt, receipt.block) ∧
      shared.accepts (ids.sizer? shared.authority) attempt = true
  ascending : shared.received.Pairwise fun earlier later => earlier.place < later.place
  waiting : ∀ since, shared.waiting = some since → shared.pool.closed = false ∧
    shared.pool.isUsedUp = true ∧ ∀ receipt ∈ shared.received, receipt.place < since
  block : shared.pool.block =
    if shared.pool.closed then none else shared.received.getLast?.map Receipt.block
  drained : shared.Drained

section Changes

variable {σ : Type} {ids after : World σ} {shared : SharedPool}

theorem Sound.grows (sound : shared.Sound ids) (grows : ids.Grows after) : shared.Sound after := by
  obtain ⟨sizer, known⟩ := sound.known
  have still := grows.sizers shared.authority sizer known
  refine ⟨⟨sizer, still⟩, fun receipt member => ?_, sound.ascending, sound.waiting, sound.block,
    sound.drained⟩
  obtain ⟨attempt, found, accepted⟩ := sound.granted receipt member
  rw [known] at accepted
  rw [still]
  exact ⟨attempt, grows.grantAt? found, accepted⟩

theorem sound_create {authority : Nat} {sizer : BlockSizer}
    (known : ids.sizer? authority = some sizer) (partitionId namespaceId : UInt32)
    (renewTimeout : Nat) :
    Sound ids ⟨authority, .create partitionId namespaceId renewTimeout, none, [], []⟩ :=
  ⟨⟨sizer, known⟩, nofun, .nil, nofun, rfl, .fresh rfl rfl⟩

/-- The identifier at hand lies in the last block received. -/
theorem Sound.issue (sound : shared.Sound ids) (isOpen : shared.pool.closed = false)
    (held : shared.pool.isUsedUp = false) : shared.issue.Sound ids := by
  have block := sound.block
  rw [isOpen, if_neg Bool.false_ne_true] at block
  have waiting : ∀ since, shared.issue.waiting = some since →
      shared.issue.pool.closed = false ∧ shared.issue.pool.isUsedUp = true ∧
        ∀ receipt ∈ shared.issue.received, receipt.place < since := by
    intro since waits
    obtain ⟨_, usedUp, _⟩ := sound.waiting since waits
    rw [held] at usedUp
    exact absurd usedUp Bool.false_ne_true
  refine ⟨sound.known, sound.granted, sound.ascending, waiting, sound.block, ?_⟩
  cases sound.drained with
  | fresh received issued =>
      rw [received] at block
      rw [IdPool.isUsedUp, block] at held
      cases held
  | drawing received above below issued =>
      rename_i earlier last
      rw [received, List.getLast?_concat] at block
      rw [IdPool.isUsedUp, block] at held
      have next : shared.pool.next < last.block.stop :=
        UInt64.not_le.1 (of_decide_eq_false held)
      refine .drawing received ?_ (IdBlock.succ_le next) ?_
      · rw [UInt64.le_iff_toNat_le] at above ⊢
        show _ ≤ (shared.pool.next + 1).toNat
        rw [IdBlock.toNat_succ next]
        omega
      · show shared.issued ++ [shared.pool.next] =
          _ ++ last.block.idsBelow (shared.pool.next + 1)
        rw [IdBlock.idsBelow_succ above next, issued, List.append_assoc]

theorem Sound.ask (sound : shared.Sound ids)
    (old : ∀ receipt ∈ shared.received, receipt.place < ids.ended.length) :
    (shared.ask ids.ended.length).Sound ids := by
  unfold SharedPool.ask
  split
  · exact sound
  · rename_i free
    obtain ⟨_, isOpen⟩ := Bool.or_eq_false_iff.1 (Bool.eq_false_iff.2 free)
    split
    · rename_i usedUp
      refine ⟨sound.known, sound.granted, sound.ascending, fun since waits => ?_, sound.block, ?_⟩
      · rw [← Option.some.inj waits]
        exact ⟨isOpen, usedUp, old⟩
      · cases sound.drained with
        | fresh received issued => exact .fresh received issued
        | drawing received above below issued => exact .drawing received above below issued
    · rename_i held
      exact sound.issue isOpen (Bool.eq_false_iff.2 held)

theorem Sound.refuse (sound : shared.Sound ids) : shared.refuse.Sound ids := by
  refine ⟨sound.known, sound.granted, sound.ascending, nofun, sound.block, ?_⟩
  cases sound.drained with
  | fresh received issued => exact .fresh received issued
  | drawing received above below issued => exact .drawing received above below issued

theorem Sound.close (sound : shared.Sound ids) : shared.close.Sound ids := by
  unfold SharedPool.close
  split
  · exact sound
  · rename_i idle
    refine ⟨sound.known, sound.granted, sound.ascending, fun since waits => ?_, rfl, ?_⟩
    · have waiting : shared.waiting = some since := waits
      rw [waiting] at idle
      exact absurd rfl idle
    · cases sound.drained with
      | fresh received issued => exact .fresh received issued
      | drawing received above below issued => exact .drawing received above below issued

/-- A block that is received while the last one is used up leaves no identifier behind. -/
theorem Sound.receive (sound : shared.Sound ids) {since : Nat}
    (waits : shared.waiting = some since) {receipt : Receipt} (later : since ≤ receipt.place)
    {attempt : Attempt} (found : ids.grantAt? receipt.place = some (attempt, receipt.block))
    (accepted : shared.accepts (ids.sizer? shared.authority) attempt = true)
    (full : receipt.block.start < receipt.block.stop) : (shared.receive receipt).Sound ids := by
  obtain ⟨isOpen, usedUp, before⟩ := sound.waiting since waits
  refine ⟨sound.known, fun other member => ?_, ?_, nofun, ?_, ?_⟩
  · rcases List.mem_append.1 member with earlier | added
    · exact sound.granted other earlier
    · rw [List.mem_singleton.1 added]
      exact ⟨attempt, found, accepted⟩
  · refine List.pairwise_append.2 ⟨sound.ascending, List.pairwise_singleton _ _, ?_⟩
    intro earlier member last added
    rw [List.mem_singleton.1 added]
    exact Nat.lt_of_lt_of_le (before earlier member) later
  · show some receipt.block = if shared.pool.closed then none else
      (shared.received ++ [receipt]).getLast?.map Receipt.block
    rw [isOpen, List.getLast?_concat]
    rfl
  · have issued : shared.issued =
        shared.received.flatMap fun receipt => receipt.block.idsBelow receipt.block.stop := by
      have block := sound.block
      rw [isOpen, if_neg Bool.false_ne_true] at block
      cases sound.drained with
      | fresh received issued => rw [received, issued, List.flatMap_nil]
      | drawing received above below issued =>
          rename_i earlier last
          rw [received, List.getLast?_concat] at block
          rw [IdPool.isUsedUp, block] at usedUp
          have next : shared.pool.next = last.block.stop :=
            UInt64.le_antisymm below (of_decide_eq_true usedUp)
          rw [issued, received, next, List.flatMap_append, List.flatMap_singleton]
    refine .drawing rfl ?_ (IdBlock.succ_le full) ?_
    · show receipt.block.start ≤ receipt.block.start + 1
      rw [UInt64.le_iff_toNat_le, IdBlock.toNat_succ full]
      omega
    · show shared.issued ++ [receipt.block.start] =
        _ ++ receipt.block.idsBelow (receipt.block.start + 1)
      rw [IdBlock.idsBelow_succ (UInt64.le_refl _) full, IdBlock.idsBelow_start, issued]
      rfl

/-- An identifier that has been handed out lies in a block that has been received. -/
theorem Sound.mem_issued (sound : shared.Sound ids) {id : UInt64} (member : id ∈ shared.issued) :
    ∃ receipt ∈ shared.received, receipt.block.start ≤ id ∧ id < receipt.block.stop := by
  cases sound.drained with
  | fresh received issued =>
      rw [issued] at member
      exact absurd member List.not_mem_nil
  | drawing received above below issued =>
      rename_i earlier last
      rw [issued] at member
      rw [received]
      rcases List.mem_append.1 member with old | new
      · obtain ⟨receipt, was, within⟩ := List.mem_flatMap.1 old
        exact ⟨receipt, List.mem_append_left _ was,
          (IdBlock.mem_idsBelow (UInt64.le_refl _)).1 within⟩
      · obtain ⟨from', upTo⟩ := (IdBlock.mem_idsBelow below).1 new
        exact ⟨last, List.mem_append_right _ List.mem_cons_self, from',
          UInt64.lt_of_lt_of_le upTo below⟩

end Changes

end SharedPool

/-! ### All pools together -/

namespace PoolWorld

variable {σ : Type} {manager : Manager σ} {name : String} {world : PoolWorld σ}

/-- Every pool draws on blocks of its own. -/
structure Sound (world : PoolWorld σ) : Prop where
  ids : world.ids.Shaped
  pools : ∀ shared ∈ world.pools, shared.Sound world.ids
  apart : ∀ (index other : Nat) (shared rival : SharedPool), world.pools[index]? = some shared →
    world.pools[other]? = some rival → ∀ receipt ∈ shared.received, ∀ second ∈ rival.received,
      receipt.place = second.place → index = other

theorem sound_start (state : σ) : (start state).Sound :=
  ⟨World.shaped_start state, nofun, nofun⟩

theorem isTaken_of_mem {shared : SharedPool} (member : shared ∈ world.pools) {receipt : Receipt}
    (received : receipt ∈ shared.received) : world.isTaken receipt.place = true :=
  List.any_eq_true.2 ⟨shared, member, List.any_eq_true.2 ⟨receipt, received, decide_eq_true rfl⟩⟩

/-- A change of one pool keeps pools apart if it adds no block that has been taken. -/
theorem Sound.alter (sound : world.Sound) (index : Nat) {change : SharedPool → SharedPool}
    (keeps : ∀ shared ∈ world.pools, (change shared).Sound world.ids)
    (adds : ∀ shared ∈ world.pools, ∀ receipt ∈ (change shared).received,
      receipt ∈ shared.received ∨ world.isTaken receipt.place = false) :
    (world.alter index change).Sound := by
  refine ⟨sound.ids, fun shared member => ?_, ?_⟩
  · rcases mem_alter member with was | ⟨earlier, was, rfl⟩
    · exact sound.pools shared was
    · exact keeps earlier was
  · intro left right shared rival found other receipt received second receivedToo same
    rw [getElem?_alter] at found other
    obtain ⟨before, held, rfl⟩ := Option.map_eq_some_iff.1 found
    obtain ⟨rivalBefore, rivalHeld, rfl⟩ := Option.map_eq_some_iff.1 other
    have was := List.mem_of_getElem? held
    have rivalWas := List.mem_of_getElem? rivalHeld
    -- Only a receipt of the changed pool can be new, and then no other pool has taken its place.
    by_cases atLeft : index = left
    · by_cases atRight : index = right
      · exact atLeft.symm.trans atRight
      · rw [if_pos atLeft] at received
        rw [if_neg atRight] at receivedToo
        rcases adds before was receipt received with old | free
        · exact sound.apart left right before rivalBefore held rivalHeld receipt old second
            receivedToo same
        · rw [same, isTaken_of_mem rivalWas receivedToo] at free
          exact absurd free nofun
    · rw [if_neg atLeft] at received
      by_cases atRight : index = right
      · rw [if_pos atRight] at receivedToo
        rcases adds rivalBefore rivalWas second receivedToo with old | free
        · exact sound.apart left right before rivalBefore held rivalHeld receipt received second
            old same
        · rw [← same, isTaken_of_mem was received] at free
          exact absurd free nofun
      · rw [if_neg atRight] at receivedToo
        exact sound.apart left right before rivalBefore held rivalHeld receipt received second
          receivedToo same

/-- What a pool has received was granted before. -/
theorem Sound.place_lt (sound : world.Sound) : ∀ shared ∈ world.pools,
    ∀ receipt ∈ shared.received, receipt.place < world.ids.ended.length := by
  intro shared member receipt received
  obtain ⟨attempt, found, _⟩ := (sound.pools shared member).granted receipt received
  exact (List.getElem?_eq_some_iff.1 (World.grantAt?_eq_some_iff.1 found)).1

theorem received_close (shared : SharedPool) : shared.close.received = shared.received := by
  unfold SharedPool.close
  split <;> rfl

/-- What a waiting pool can get: nothing, or a free block from its authority. -/
theorem renew_cases (world : PoolWorld σ) (place : Nat) (shared : SharedPool) :
    world.renew place shared = shared ∨ ∃ since attempt block,
      shared.waiting = some since ∧ since ≤ place ∧ world.isTaken place = false ∧
        world.ids.grantAt? place = some (attempt, block) ∧
        shared.accepts (world.ids.sizer? shared.authority) attempt = true ∧
        world.renew place shared = shared.receive ⟨place, block⟩ := by
  unfold renew
  split
  · rename_i since attempt block waits found
    split
    · rename_i allowed
      simp only [Bool.and_eq_true, decide_eq_true_eq, Bool.not_eq_true'] at allowed
      exact Or.inr ⟨since, attempt, block, waits, allowed.1.1, allowed.1.2, found, allowed.2, rfl⟩
    · exact Or.inl rfl
  · exact Or.inl rfl

/-- Every event keeps each pool drawing on blocks of its own. -/
theorem Sound.step (sound : world.Sound) (manager : Manager σ) (name : String)
    (event : PoolEvent) : (world.step manager name event).Sound := by
  cases event with
  | ids event =>
      have grows := World.grows_step manager name world.ids event
      exact ⟨sound.ids.step manager name event,
        fun shared member => (sound.pools shared member).grows grows, sound.apart⟩
  | created authority partitionId namespaceId renewTimeout =>
      rw [PoolWorld.step]
      split
      · rename_i below
        have known : world.ids.sizer? authority = some world.ids.authorities[authority].sizer := by
          rw [World.sizer?, List.getElem?_eq_getElem below]
          rfl
        refine ⟨sound.ids, fun shared member => ?_, ?_⟩
        · rcases List.mem_append.1 member with was | added
          · exact sound.pools shared was
          · rw [List.mem_singleton.1 added]
            exact SharedPool.sound_create known partitionId namespaceId renewTimeout
        · have before : ∀ (index : Nat) (shared : SharedPool) (receipt : Receipt),
              (world.pools ++ [(⟨authority, .create partitionId namespaceId renewTimeout, none, [],
                []⟩ : SharedPool)])[index]? = some shared →
              receipt ∈ shared.received → world.pools[index]? = some shared := by
            intro index shared receipt found received
            rw [List.getElem?_append] at found
            split at found
            · exact found
            · rw [List.mem_singleton.1 (List.mem_of_getElem? found)] at received
              exact absurd received List.not_mem_nil
          intro index other shared rival found second receipt received last receivedToo
          exact sound.apart index other shared rival (before index shared receipt found received)
            (before other rival last second receivedToo) receipt received last receivedToo
      · exact sound
  | asked index =>
      refine sound.alter index (fun shared member => ?_) fun shared _ receipt received => ?_
      · exact (sound.pools shared member).ask (sound.place_lt shared member)
      · rw [received_ask] at received
        exact Or.inl received
  | renewed index place =>
      refine sound.alter index (fun shared member => ?_) fun shared _ receipt received => ?_
      · rcases renew_cases world place shared with same | ⟨since, attempt, block, waits, later, _,
          found, accepted, renewed⟩
        · rw [same]
          exact sound.pools shared member
        · rw [renewed]
          exact (sound.pools shared member).receive waits later found accepted
            (sound.ids.granted _ (World.mem_granted found)).2
      · rcases renew_cases world place shared with same | ⟨_, _, block, _, _, free, _, _, renewed⟩
        · rw [same] at received
          exact Or.inl received
        · rw [renewed] at received
          rcases List.mem_append.1 received with old | added
          · exact Or.inl old
          · rw [List.mem_singleton.1 added]
            exact Or.inr free
  | refused index =>
      exact sound.alter index (fun shared member => (sound.pools shared member).refuse)
        fun _ _ _ => Or.inl
  | closed index =>
      refine sound.alter index (fun shared member => (sound.pools shared member).close)
        fun shared _ receipt received => ?_
      rw [received_close] at received
      exact Or.inl received

/-- In every run each pool draws on blocks of its own. -/
theorem Sound.run (sound : world.Sound) (manager : Manager σ) (name : String)
    (events : List PoolEvent) : (world.run manager name events).Sound := by
  induction events generalizing world with
  | nil => exact sound
  | cons event events inductionHypothesis =>
      exact inductionHypothesis (sound.step manager name event)

/-! ### Safety -/

structure Safe (world : PoolWorld σ) : Prop where
  unique : ∀ partitionId namespaceId, (world.issued partitionId namespaceId).Nodup
  bounded : ∀ shared ∈ world.pools, ∃ sizer, world.ids.sizer? shared.authority = some sizer ∧
    ∀ id ∈ shared.issued, id < (sizer.shape shared.pool.namespaceId).upperBound
  rising : ∀ shared ∈ world.pools, shared.issued.Pairwise (· < ·)
  /-- No identifier of a block is left out or handed out again, whatever calls have failed. -/
  drained : ∀ shared ∈ world.pools, shared.Drained

structure SafeStep (world : PoolWorld σ) (event : PoolEvent) (after : PoolWorld σ) : Prop where
  /-- A pool that is closed stays so and hands out nothing any more. -/
  closed : ∀ (index : Nat) (shared : SharedPool), world.pools[index]? = some shared →
    shared.pool.closed = true → ∃ later, after.pools[index]? = some later ∧
      later.pool.closed = true ∧ later.issued = shared.issued
  /-- A call that fails leaves its pool as it is. -/
  refused : ∀ (index : Nat) (shared : SharedPool), event = .refused index →
    world.pools[index]? = some shared → ∃ later, after.pools[index]? = some later ∧
      later.pool = shared.pool ∧ later.issued = shared.issued

/-- Blocks that pools have received are apart if they are of one partition and namespace. -/
theorem Sound.block_apart (sound : world.Sound) (inOrder : world.ids.GrantsInOrder)
    {shared rival : SharedPool} (member : shared ∈ world.pools) (rivalMember : rival ∈ world.pools)
    {receipt second : Receipt} (received : receipt ∈ shared.received)
    (receivedToo : second ∈ rival.received) (before : receipt.place < second.place)
    (same : (rival.pool.partitionId, rival.pool.namespaceId) =
      (shared.pool.partitionId, shared.pool.namespaceId)) :
    receipt.block.stop ≤ second.block.start := by
  obtain ⟨attempt, found, accepted⟩ := (sound.pools shared member).granted receipt received
  obtain ⟨other, otherFound, otherAccepted⟩ :=
    (sound.pools rival rivalMember).granted second receivedToo
  obtain ⟨fits, _⟩ := sound.ids.granted _ (World.mem_granted found)
  obtain ⟨otherFits, _⟩ := sound.ids.granted _ (World.mem_granted otherFound)
  simp only [SharedPool.accepts, Bool.and_eq_true, decide_eq_true_eq] at accepted otherAccepted
  obtain ⟨samePartition, sameNamespace⟩ := Prod.mk.inj same
  refine sound.ids.stop_le_start inOrder before found otherFound (IdBlock.isOf_iff.2 ?_)
  have partitions : receipt.block.partitionId = second.block.partitionId := by
    rw [fits.partitionId, otherFits.partitionId, accepted.1.1, otherAccepted.1.1, samePartition]
  have namespaces : receipt.block.namespaceId = second.block.namespaceId := by
    rw [fits.namespaceId, otherFits.namespaceId, accepted.1.2, otherAccepted.1.2, sameNamespace]
  rw [partitions, namespaces]

/-- Identifiers lie below the bound of their namespace. -/
theorem Sound.bounded (sound : world.Sound) {shared : SharedPool} (member : shared ∈ world.pools) :
    ∃ sizer, world.ids.sizer? shared.authority = some sizer ∧
      ∀ id ∈ shared.issued, id < (sizer.shape shared.pool.namespaceId).upperBound := by
  have known := sound.pools shared member
  obtain ⟨sizer, given⟩ := known.known
  refine ⟨sizer, given, fun id issued => ?_⟩
  obtain ⟨receipt, received, _, below⟩ := known.mem_issued issued
  obtain ⟨attempt, found, accepted⟩ := known.granted receipt received
  obtain ⟨fits, _⟩ := sound.ids.granted _ (World.mem_granted found)
  simp only [SharedPool.accepts, Bool.and_eq_true, decide_eq_true_eq, given] at accepted
  have bound := fits.bound
  rw [Attempt.shape, accepted.1.2, ← Option.some.inj accepted.2] at bound
  exact UInt64.lt_of_lt_of_le below bound

/-- A pool hands out its identifiers in ascending order, if blocks are granted so. -/
theorem Sound.rising (sound : world.Sound) (inOrder : world.ids.GrantsInOrder)
    {shared : SharedPool} (member : shared ∈ world.pools) : shared.issued.Pairwise (· < ·) := by
  have known := sound.pools shared member
  have follow : ∀ receipt ∈ shared.received, ∀ second ∈ shared.received,
      receipt.place < second.place → receipt.block.stop ≤ second.block.start :=
    fun receipt received second receivedToo before =>
      sound.block_apart inOrder member member received receivedToo before rfl
  cases known.drained with
  | fresh received issued =>
      rw [issued]
      exact .nil
  | drawing received above below issued =>
      rename_i earlier last
      have ascending := known.ascending
      rw [received] at ascending follow
      obtain ⟨ascendingEarlier, _, beforeLast⟩ := List.pairwise_append.1 ascending
      rw [issued]
      refine List.pairwise_append.2 ⟨List.pairwise_flatMap.2 ⟨fun receipt _ => ?_, ?_⟩, ?_, ?_⟩
      · exact IdBlock.idsBelow_ascending (UInt64.le_refl _)
      · refine ascendingEarlier.imp_of_mem fun {receipt second} was later before => ?_
        intro low inFirst high inSecond
        obtain ⟨_, belowStop⟩ := (IdBlock.mem_idsBelow (UInt64.le_refl _)).1 inFirst
        obtain ⟨aboveStart, _⟩ := (IdBlock.mem_idsBelow (UInt64.le_refl _)).1 inSecond
        exact UInt64.lt_of_lt_of_le belowStop (UInt64.le_trans
          (follow receipt (List.mem_append_left _ was) second (List.mem_append_left _ later) before)
          aboveStart)
      · exact IdBlock.idsBelow_ascending below
      · intro low old high new
        obtain ⟨receipt, was, inFirst⟩ := List.mem_flatMap.1 old
        obtain ⟨_, belowStop⟩ := (IdBlock.mem_idsBelow (UInt64.le_refl _)).1 inFirst
        obtain ⟨aboveStart, _⟩ := (IdBlock.mem_idsBelow below).1 new
        exact UInt64.lt_of_lt_of_le belowStop (UInt64.le_trans
          (follow receipt (List.mem_append_left _ was) last
            (List.mem_append_right _ List.mem_cons_self)
            (beforeLast receipt was last List.mem_cons_self)) aboveStart)

/-- Two pools of one partition and namespace have no identifier in common. -/
theorem Sound.issued_apart (sound : world.Sound) (inOrder : world.ids.GrantsInOrder)
    {index other : Nat} {shared rival : SharedPool} (found : world.pools[index]? = some shared)
    (second : world.pools[other]? = some rival) (different : index ≠ other)
    (same : (shared.pool.partitionId, shared.pool.namespaceId) =
      (rival.pool.partitionId, rival.pool.namespaceId)) {id : UInt64}
    (issued : id ∈ shared.issued) : id ∉ rival.issued := by
  intro issuedToo
  have member := List.mem_of_getElem? found
  have rivalMember := List.mem_of_getElem? second
  obtain ⟨receipt, received, above, below⟩ := (sound.pools shared member).mem_issued issued
  obtain ⟨last, receivedToo, aboveToo, belowToo⟩ :=
    (sound.pools rival rivalMember).mem_issued issuedToo
  -- Of two blocks of one namespace the one granted later begins behind the other one.
  rcases Nat.lt_trichotomy receipt.place last.place with before | samePlace | behind
  · have apart := sound.block_apart inOrder member rivalMember received receivedToo before same.symm
    exact absurd (UInt64.lt_of_lt_of_le below (UInt64.le_trans apart aboveToo))
      (UInt64.lt_irrefl id)
  · exact different
      (sound.apart index other shared rival found second receipt received last receivedToo
        samePlace)
  · have apart := sound.block_apart inOrder rivalMember member receivedToo received behind same
    exact absurd (UInt64.lt_of_lt_of_le belowToo (UInt64.le_trans apart above))
      (UInt64.lt_irrefl id)

/-- Where blocks are granted in order, pools that draw on blocks of their own are safe. -/
theorem Sound.safe (sound : world.Sound) (inOrder : world.ids.GrantsInOrder) : world.Safe where
  unique partitionId namespaceId := by
    refine List.pairwise_flatMap.2 ⟨fun shared member => ?_, ?_⟩
    · have rising := sound.rising inOrder (List.mem_filter.1 member).1
      exact rising.imp UInt64.ne_of_lt
    · have apart : world.pools.Pairwise fun shared rival =>
          (shared.pool.partitionId, shared.pool.namespaceId) =
            (rival.pool.partitionId, rival.pool.namespaceId) →
          ∀ id ∈ shared.issued, ∀ second ∈ rival.issued, id ≠ second := by
        refine List.pairwise_iff_getElem.2 fun index other below belowToo less same => ?_
        intro id issued second issuedToo equal
        exact sound.issued_apart inOrder (List.getElem?_eq_getElem below)
          (List.getElem?_eq_getElem belowToo) (Nat.ne_of_lt less) same issued (equal ▸ issuedToo)
      refine (apart.filter _).imp_of_mem fun {shared rival} member rivalMember related => ?_
      have own := (List.mem_filter.1 member).2
      have rivalOwn := (List.mem_filter.1 rivalMember).2
      simp only [Bool.and_eq_true, decide_eq_true_eq] at own rivalOwn
      exact related (by rw [own.1, own.2, rivalOwn.1, rivalOwn.2])
  bounded shared member := sound.bounded member
  rising shared member := sound.rising inOrder member
  drained shared member := (sound.pools shared member).drained

theorem Sound.safeStep (sound : world.Sound) (manager : Manager σ) (name : String)
    (event : PoolEvent) : world.SafeStep event (world.step manager name event) := by
  constructor
  case closed =>
    intro index shared found closed
    have idle : shared.waiting = none := by
      refine Option.eq_none_iff_forall_ne_some.2 fun since waits => ?_
      have isOpen := ((sound.pools shared (List.mem_of_getElem? found)).waiting since waits).1
      rw [closed] at isOpen
      exact absurd isOpen nofun
    have altered : ∀ (place : Nat) (change : SharedPool → SharedPool),
        (change shared).pool.closed = true ∧ (change shared).issued = shared.issued →
        ∃ later, (world.alter place change).pools[index]? = some later ∧
          later.pool.closed = true ∧ later.issued = shared.issued := by
      intro place change kept
      refine ⟨_, (getElem?_alter ..).trans (congrArg _ found), ?_⟩
      split
      · exact kept
      · exact ⟨closed, rfl⟩
    cases event with
    | ids event => exact ⟨shared, found, closed, rfl⟩
    | created authority partitionId namespaceId renewTimeout =>
        refine ⟨shared, ?_, closed, rfl⟩
        rw [PoolWorld.step]
        split
        · rw [List.getElem?_append_left (List.getElem?_eq_some_iff.1 found).1, found]
        · exact found
    | asked place =>
        refine altered place _ ?_
        rw [SharedPool.ask, closed, Bool.or_true, if_pos rfl]
        exact ⟨closed, rfl⟩
    | renewed place granted =>
        refine altered place _ ?_
        rw [renew, idle]
        exact ⟨closed, rfl⟩
    | refused place => exact altered place _ ⟨closed, rfl⟩
    | closed place =>
        refine altered place _ ?_
        rw [SharedPool.close, idle]
        exact ⟨rfl, rfl⟩
  case refused =>
    rintro index shared rfl found
    refine ⟨shared.refuse, ?_, rfl, rfl⟩
    rw [PoolWorld.step, getElem?_alter, found, Option.map_some, if_pos rfl]

/-- What holds of every call that is made while nobody else uses its pool: it is a run of events,
and where it fails its pool is as before. A closed pool answers that it is closed. -/
structure SafeCalls (manager : Manager σ) (name : String) (world : PoolWorld σ) : Prop where
  runs : ∀ (index : Nat) (shared : SharedPool) (authority : IdAuthority),
    world.pools[index]? = some shared → shared.waiting = none →
    world.ids.authorities[shared.authority]? = some authority →
      ∃ events outcome pool state,
        shared.pool.nextId authority manager world.ids.state = ((outcome, pool), state) ∧
        Called index shared outcome pool state (world.run manager name events)
  failed : ∀ (shared : SharedPool) (authority : IdAuthority) (failure : StoreError)
    (pool : IdPool) (state : σ),
      shared.pool.nextId authority manager world.ids.state = ((.error failure, pool), state) →
        pool = shared.pool
  closed : ∀ (shared : SharedPool) (authority : IdAuthority), shared.pool.closed = true →
    shared.pool.nextId authority manager world.ids.state =
      ((.error (.closed .idPool), shared.pool), world.ids.state)

theorem Sound.safeCalls (sound : world.Sound) (manager : Manager σ) (name : String) :
    world.SafeCalls manager name where
  runs _ _ _ found idle granter := nextId_run manager name found idle granter sound.place_lt
  failed _ _ _ _ _ failed := IdPool.eq_of_nextId_error failed
  closed _ _ closed := IdPool.nextId_of_closed closed _ _ _

/-- Whatever authorities and pools do and whichever calls fail: where blocks are granted in order,
every moment and every event is safe. Over either backend they are from an empty table on. -/
theorem ids_unique (name : String) (events : List PoolEvent) (event : PoolEvent) :
    (∀ {σ : Type} (manager : Manager σ) (state : σ),
      let world := (start state).run manager name events
      world.ids.GrantsInOrder → world.Safe ∧ world.SafeCalls manager name ∧
        world.SafeStep event (world.step manager name event)) ∧
    (∀ memory : Memory, Tables.table memory.stores.current name = .empty →
      ((start memory).run Memory.manager name events).ids.GrantsInOrder) ∧
    (∀ embedded : Embedded, Tables.table embedded.stores.current name = .empty →
      ((start embedded).run Embedded.manager name events).ids.GrantsInOrder) := by
  refine ⟨?_, fun memory empty => ?_, fun embedded empty => ?_⟩
  · intro σ manager state world inOrder
    have sound : world.Sound := (sound_start state).run manager name events
    exact ⟨sound.safe inOrder, sound.safeCalls manager name, sound.safeStep manager name event⟩
  · obtain ⟨others, ids⟩ := ids_run Memory.manager name events (start memory)
    rw [ids]
    have sound : (World.start memory).Sound (Memory.idStore name) := World.sound_start empty
    exact (sound.run others).grantsInOrder
  · obtain ⟨others, ids⟩ := ids_run Embedded.manager name events (start embedded)
    rw [ids]
    have sound : (World.start embedded).Sound (Embedded.idStore name) := World.sound_start empty
    exact (sound.run others).grantsInOrder

/-- Two pools with authorities of their own contend for blocks; a call of the second one fails and
the next one succeeds, the first one uses up its block and gets another, the second is closed. -/
def contendingPools : List PoolEvent :=
  [.ids (.opened (.uniform 2 100) .standard), .ids (.opened (.uniform 3 7) .standard),
    .created 0 1 2 50, .created 1 1 2 50, .asked 0, .asked 1, .ids (.admitted 0 1 2),
    .ids (.admitted 1 1 2), .ids (.bid 0 .none), .ids (.bid 1 .none), .ids (.redeemed 0 .none),
    .ids (.redeemed 0 .none), .renewed 0 0, .refused 1, .asked 1, .ids (.admitted 1 1 2),
    .ids (.bid 0 .none), .ids (.redeemed 0 .none), .renewed 1 2, .asked 0, .asked 0,
    .ids (.admitted 0 1 2), .ids (.bid 0 .none), .ids (.redeemed 0 .none), .renewed 0 3,
    .closed 1, .asked 1]

theorem ids_unique_contendingPools :
    let memory := (start Memory.empty).run Memory.manager "ids" contendingPools
    let embedded := (start World.falteringBackend).run Embedded.manager "ids" contendingPools
    (memory.issued 1 2 = [0, 1, 5, 2] ∧ embedded.ids.GrantsInOrder) ∧
      memory.Safe ∧ memory.SafeCalls Memory.manager "ids" ∧
      memory.SafeStep (.asked 0) (memory.step Memory.manager "ids" (.asked 0)) := by
  intro memory embedded
  obtain ⟨safe, inMemory, withLog⟩ := ids_unique "ids" contendingPools (.asked 0)
  have issued : memory.issued 1 2 = [0, 1, 5, 2] := by decide +kernel
  exact ⟨⟨issued, withLog World.falteringBackend rfl⟩,
    safe Memory.manager Memory.empty (inMemory Memory.empty rfl)⟩

end PoolWorld

end GraphStore
