import GraphStore.Proofs.Ids.Safety

/-!
Contract: blocks that are granted one after the other.

Owns what attempts keep to whatever their store does (`World.Shaped`), that nothing which has ended
is forgotten (`World.Grows`), and the order of granted blocks (`World.GrantsInOrder`), in which
authorities over a store grant from an empty table on (`World.Sound.grantsInOrder`).
-/

namespace GraphStore

/-! ### Attempts, whatever the store does -/

/-- The attempt is for a block that holds something, and its bid keeps to size and bound. -/
structure Attempt.Shaped (attempt : Attempt) : Prop where
  full : attempt.shape.size ≠ 0
  bid : ∀ bid, attempt.bid = some bid →
    IdAuthority.blockEnd? bid.start attempt.shape = some bid.stop

/-- The block of a bid in shape is in shape. -/
theorem Attempt.Shaped.fits {attempt : Attempt} {bid : Bid} (shaped : attempt.Shaped)
    (placed : attempt.bid = some bid) :
    attempt.Fits (attempt.block bid) ∧ bid.start < bid.stop := by
  obtain ⟨size, bound⟩ := IdAuthority.blockEnd?_eq_some_iff.1 (shaped.bid bid placed)
  refine ⟨⟨rfl, rfl, size, bound⟩, ?_⟩
  have full : attempt.shape.size.toNat ≠ 0 := fun zero => shaped.full (UInt64.toNat_inj.1 zero)
  rw [UInt64.lt_iff_toNat_lt]
  omega

theorem Glitch.around_ok {σ α : Type} {call : Action σ α} {glitch : Glitch} {state after : σ}
    {answer : α} (answered : glitch.around call state = (.ok answer, after)) :
    call state = (.ok answer, after) := by
  cases glitch with
  | none => exact answered
  | before text => cases answered
  | after text => cases answered

namespace IdAuthority

variable {σ : Type} {authority : IdAuthority} {manager : Manager σ}
  {partitionId namespaceId : UInt32} {state after : σ} {bid : Bid}

theorem blockEnd?_of_bid
    (placed : authority.bid manager partitionId namespaceId state = (.ok bid, after)) :
    blockEnd? bid.start (authority.sizer.shape namespaceId) = some bid.stop := by
  rcases read : authority.readWatermark manager (watermarkKey partitionId namespaceId) state with
    ⟨outcome, seen⟩
  cases outcome with
  | error failure =>
      rw [IdAuthority.bid, Action.bind_of_error read] at placed
      cases placed
  | ok found =>
      obtain ⟨cell, start⟩ := found
      rw [IdAuthority.bid, Action.bind_of_ok read] at placed
      cases ends : blockEnd? start (authority.sizer.shape namespaceId) with
      | none =>
          simp only [ends] at placed
          cases placed
      | some stop =>
          simp only [ends] at placed
          cases placed
          exact ends

theorem eq_of_redeem {block : IdBlock}
    (redeemed : authority.redeem manager partitionId namespaceId bid state =
      (.ok (some block), after)) :
    block = ⟨partitionId, namespaceId, bid.start, bid.stop⟩ := by
  rcases swapped : authority.advance manager (watermarkKey partitionId namespaceId) bid.cell
    bid.stop state with ⟨outcome, seen⟩
  cases outcome with
  | error failure =>
      rw [redeem, Action.bind_of_error swapped] at redeemed
      cases redeemed
  | ok written =>
      rw [redeem, Action.bind_of_ok swapped] at redeemed
      cases written with
      | false => cases redeemed
      | true =>
          cases redeemed
          rfl

end IdAuthority

namespace World

variable {σ : Type} {manager : Manager σ} {name : String} {world after : World σ}

/-- The sizes that an authority gives to its blocks, open or not. -/
def sizer? (world : World σ) (index : Nat) : Option BlockSizer :=
  world.authorities[index]?.map IdAuthority.sizer

/-- The block that the attempt at a place among the ended ones has got, and that attempt. -/
def grantAt? (world : World σ) (place : Nat) : Option (Attempt × IdBlock) :=
  match world.ended[place]? with
  | some (attempt, .ok (some block)) => some (attempt, block)
  | _ => none

theorem grantAt?_eq_some_iff {world : World σ} {place : Nat} {attempt : Attempt}
    {block : IdBlock} :
    world.grantAt? place = some (attempt, block) ↔
      world.ended[place]? = some (attempt, .ok (some block)) := by
  unfold grantAt?
  split
  · rename_i found
    simp [found]
  · rename_i other
    refine ⟨nofun, fun found => absurd found ?_⟩
    exact other attempt block

/-- Attempts under way are in shape, and so are the granted blocks, none of which is empty. -/
structure Shaped (world : World σ) : Prop where
  bidding : ∀ attempt ∈ world.attempts, attempt.Shaped
  granted : ∀ grant ∈ world.granted, grant.1.Fits grant.2 ∧ grant.2.start < grant.2.stop

/-- Nothing that has ended is forgotten, and no authority changes the sizes of its blocks. -/
structure Grows (world after : World σ) : Prop where
  ended : ∃ added, after.ended = world.ended ++ added
  sizers : ∀ index sizer, world.sizer? index = some sizer → after.sizer? index = some sizer

/-- The granted blocks of a partition and namespace are disjoint, and start at a watermark that
never falls. -/
def GrantsInOrder (world : World σ) : Prop :=
  (world.granted.map Prod.snd).Pairwise fun earlier later =>
    earlier.overlaps later = false ∧
      (later.isOf earlier.partitionId earlier.namespaceId = true → earlier.start ≤ later.start)

instance (world : World σ) : Decidable world.GrantsInOrder := by
  unfold GrantsInOrder
  infer_instance

/-- With its authorities as they are, a world grows by the attempts that end. -/
theorem grows_of_ended (authorities : after.authorities = world.authorities)
    (ended : ∃ added, after.ended = world.ended ++ added) : world.Grows after :=
  ⟨ended, fun index _ found => by rw [sizer?, authorities]; exact found⟩

theorem grows_of_same (authorities : after.authorities = world.authorities)
    (ended : after.ended = world.ended) : world.Grows after :=
  grows_of_ended authorities ⟨[], by rw [ended, List.append_nil]⟩

theorem Grows.record (grows : world.Grows after) (acknowledged : Bool)
    (outcome : Result (Option IdBlock)) : world.Grows (after.record acknowledged outcome) := by
  obtain ⟨swaps, recorded⟩ := record_eq after acknowledged outcome
  rw [recorded]
  exact ⟨grows.ended, grows.sizers⟩

theorem grows_stepRedeem (manager : Manager σ) (world : World σ) (index : Nat)
    (attempt : Attempt) (bid : Bid) (glitch : Glitch) :
    world.Grows (world.stepRedeem manager index attempt bid glitch) := by
  have finished : ∀ outcome state, world.Grows (world.finish index attempt outcome state) :=
    fun outcome state => grows_of_ended rfl ⟨_, rfl⟩
  unfold stepRedeem
  cases glitch with
  | none => exact (finished _ _).record _ _
  | before text => exact finished _ _
  | after text => exact (finished _ _).record _ _

/-- No event forgets what has ended. -/
theorem grows_step (manager : Manager σ) (name : String) (world : World σ) (event : IdEvent) :
    world.Grows (world.step manager name event) := by
  cases event with
  | opened sizer options =>
      rw [step]
      split
      · refine ⟨⟨[], (List.append_nil _).symm⟩, fun index sizer found => ?_⟩
        obtain ⟨authority, held, rfl⟩ := Option.map_eq_some_iff.1 found
        obtain ⟨below, _⟩ := List.getElem?_eq_some_iff.1 held
        rw [sizer?, List.getElem?_append_left below, held]
        rfl
      · exact grows_of_same rfl rfl
  | closed index =>
      refine ⟨⟨[], (List.append_nil _).symm⟩, fun other sizer found => ?_⟩
      obtain ⟨authority, held, rfl⟩ := Option.map_eq_some_iff.1 found
      rw [step, sizer?, List.getElem?_modify, held]
      show some (if index = other then authority.close else authority).sizer = _
      split <;> rfl
  | admitted index partitionId namespaceId =>
      rw [step]
      split
      · split <;> exact grows_of_same rfl rfl
      · exact grows_of_same rfl rfl
  | bid index glitch =>
      rw [step]
      split
      · split
        · unfold stepBid
          split
          · exact grows_of_same rfl rfl
          · exact grows_of_ended rfl ⟨_, rfl⟩
        · exact grows_of_same rfl rfl
      · exact grows_of_same rfl rfl
  | redeemed index glitch =>
      rw [step]
      split
      · split
        · exact grows_stepRedeem ..
        · exact grows_of_same rfl rfl
      · exact grows_of_same rfl rfl

/-- The block of an ended attempt stays what it is. -/
theorem Grows.grantAt? {place : Nat} {attempt : Attempt} {block : IdBlock}
    (grows : world.Grows after) (found : world.grantAt? place = some (attempt, block)) :
    after.grantAt? place = some (attempt, block) := by
  rw [grantAt?_eq_some_iff] at found ⊢
  obtain ⟨added, ended⟩ := grows.ended
  obtain ⟨below, _⟩ := List.getElem?_eq_some_iff.1 found
  rw [ended, List.getElem?_append_left below, found]

theorem mem_granted {place : Nat} {attempt : Attempt} {block : IdBlock}
    (found : world.grantAt? place = some (attempt, block)) : (attempt, block) ∈ world.granted :=
  List.mem_filterMap.2 ⟨_, List.mem_of_getElem? (grantAt?_eq_some_iff.1 found), rfl⟩

/-! #### Shape -/

/-- What is granted by one attempt that ends is in shape with it. -/
theorem Shaped.finish (shaped : world.Shaped) (index : Nat) {attempt : Attempt}
    {outcome : Result (Option IdBlock)} (state : σ)
    (fits : ∀ block, outcome = .ok (some block) → attempt.Fits block ∧ block.start < block.stop) :
    (world.finish index attempt outcome state).Shaped where
  bidding other member := shaped.bidding other (List.mem_of_mem_eraseIdx member)
  granted := by
    rw [granted_finish]
    intro given member
    rcases List.mem_append.1 member with earlier | added
    · exact shaped.granted given earlier
    · unfold grant at added
      split at added
      · rename_i block
        rw [List.mem_singleton.1 added]
        exact fits block rfl
      · exact absurd added List.not_mem_nil

theorem Shaped.finish_error (shaped : world.Shaped) (index : Nat) {attempt : Attempt}
    (failure : StoreError) (state : σ) :
    (world.finish index attempt (.error failure) state).Shaped :=
  shaped.finish index state fun _ granted => by cases granted

theorem Shaped.record (shaped : world.Shaped) (acknowledged : Bool)
    (outcome : Result (Option IdBlock)) : (world.record acknowledged outcome).Shaped := by
  obtain ⟨swaps, recorded⟩ := record_eq world acknowledged outcome
  rw [recorded]
  exact ⟨shaped.bidding, shaped.granted⟩

theorem shaped_start (state : σ) : (start state).Shaped := ⟨nofun, nofun⟩

/-- Every event keeps attempts and granted blocks in shape. -/
theorem Shaped.step (shaped : world.Shaped) (manager : Manager σ) (name : String)
    (event : IdEvent) : (world.step manager name event).Shaped := by
  cases event with
  | opened sizer options =>
      rw [World.step]
      split <;> exact ⟨shaped.bidding, shaped.granted⟩
  | closed index => exact ⟨shaped.bidding, shaped.granted⟩
  | admitted index partitionId namespaceId =>
      rw [World.step]
      split
      · rename_i authority found
        split
        · rename_i admitted
          refine ⟨fun attempt member => ?_, shaped.granted⟩
          rcases List.mem_append.1 member with earlier | added
          · exact shaped.bidding attempt earlier
          · rw [List.mem_singleton.1 added]
            refine ⟨?_, fun _ made => by cases made⟩
            rw [IdAuthority.admits, Bool.and_eq_true, decide_eq_true_eq] at admitted
            exact admitted.2
        · exact shaped
      · exact shaped
  | bid index glitch =>
      rw [World.step]
      split
      · rename_i attempt found
        have known := shaped.bidding attempt (List.mem_of_getElem? found)
        split
        · unfold stepBid
          split
          · rename_i bid state placed
            refine ⟨fun other member => ?_, shaped.granted⟩
            rcases List.mem_or_eq_of_mem_set member with earlier | rfl
            · exact shaped.bidding other earlier
            · refine ⟨known.full, fun made same => ?_⟩
              rw [← Option.some.inj same]
              exact IdAuthority.blockEnd?_of_bid (Glitch.around_ok placed)
          · exact shaped.finish_error index _ _
        · exact shaped
      · exact shaped
  | redeemed index glitch =>
      rw [World.step]
      split
      · rename_i attempt found
        have known := shaped.bidding attempt (List.mem_of_getElem? found)
        split
        · rename_i bid placed
          rcases called : attempt.authority.redeem manager attempt.partitionId attempt.namespaceId
            bid world.state with ⟨outcome, after⟩
          have fits : ∀ block, outcome = .ok (some block) →
              attempt.Fits block ∧ block.start < block.stop := by
            intro block granted
            rw [granted] at called
            rw [IdAuthority.eq_of_redeem called]
            exact known.fits placed
          rw [stepRedeem_eq called]
          cases glitch with
          | none => exact (shaped.finish index after fits).record _ _
          | before text => exact shaped.finish_error index _ world.state
          | after text =>
              refine Shaped.record ?_ false outcome
              exact shaped.finish_error index _ after
        · exact shaped
      · exact shaped

/-- Of two blocks of one partition and namespace the one granted first ends before the other one
starts. -/
theorem Shaped.stop_le_start (shaped : world.Shaped) (inOrder : world.GrantsInOrder)
    {place later : Nat} (before : place < later) {attempt rival : Attempt} {block other : IdBlock}
    (first : world.grantAt? place = some (attempt, block))
    (second : world.grantAt? later = some (rival, other))
    (same : other.isOf block.partitionId block.namespaceId = true) :
    block.stop ≤ other.start := by
  obtain ⟨_, full⟩ := shaped.granted _ (mem_granted first)
  obtain ⟨_, otherFull⟩ := shaped.granted _ (mem_granted second)
  have ordered : block.overlaps other = false ∧ block.start ≤ other.start := by
    rw [GrantsInOrder, List.pairwise_map, World.granted, List.pairwise_filterMap,
      List.pairwise_iff_getElem] at inOrder
    obtain ⟨below, found⟩ := List.getElem?_eq_some_iff.1 (grantAt?_eq_some_iff.1 first)
    obtain ⟨laterBelow, laterFound⟩ := List.getElem?_eq_some_iff.1 (grantAt?_eq_some_iff.1 second)
    have related := inOrder place later below laterBelow before (attempt, block)
      (by rw [found]) (rival, other) (by rw [laterFound])
    exact ⟨related.1, related.2 same⟩
  obtain ⟨apart, rises⟩ := ordered
  have own := Prod.mk.inj (IdBlock.isOf_iff.1 same)
  simp only [IdBlock.overlaps, own.1, own.2, decide_true, Bool.true_and, Bool.and_eq_false_iff,
    decide_eq_false_iff_not] at apart
  simp only [UInt64.lt_iff_toNat_lt, UInt64.le_iff_toNat_le] at *
  omega

/-- From an empty table on, authorities over a store grant in order. -/
theorem Sound.grantsInOrder {store : IdStore manager name} (sound : world.Sound store) :
    world.GrantsInOrder := by
  rw [GrantsInOrder, sound.told]
  have rising : ∀ block ∈ world.swaps.map Swap.block, block.start ≤ block.stop := by
    intro block member
    obtain ⟨swap, recorded, rfl⟩ := List.mem_map.1 member
    exact sound.rising swap recorded
  have ordered := (sound.disjoint_swaps.and sound.ordered_swaps).imp_of_mem
    fun {earlier later} member _ related =>
      show earlier.overlaps later = false ∧
          (later.isOf earlier.partitionId earlier.namespaceId = true →
            earlier.start ≤ later.start) from
        ⟨related.1, fun own => UInt64.le_trans (rising earlier member)
          (related.2 (IdBlock.isOf_iff.2 (IdBlock.isOf_iff.1 own).symm))⟩
  exact ordered.sublist (List.filter_sublist.map Swap.block)

end World

end GraphStore
