import GraphStore.Proofs.Ids.Interleaving

/-!
Contract: conditional writes of authorities lay blocks side by side above the watermarks.

Owns the invariant that ties the conditional writes to the watermark cells (`World.Sound`), what
one event can come to (`World.StepResult`), and that events preserve the invariant
(`World.Sound.step`).
-/

namespace GraphStore

/-! ### The invariant -/

/-- What is known of an attempt: its authority refers to the store, and its bid is the number in
the cell that it has read and the end of a block above it. -/
structure Attempt.Sound (reference : StoreRef) (attempt : Attempt) : Prop where
  store : attempt.authority.store = reference
  bid : ∀ bid, attempt.bid = some bid →
    IdAuthority.watermarkOf bid.cell = .ok bid.start ∧
      IdAuthority.blockEnd? bid.start attempt.shape = some bid.stop

/-- The block is one that the attempt may get: of its partition and namespace, and with the size
and below the bound that its authority gives them. -/
structure Attempt.Fits (attempt : Attempt) (block : IdBlock) : Prop where
  partitionId : block.partitionId = attempt.partitionId
  namespaceId : block.namespaceId = attempt.namespaceId
  size : block.start.toNat + attempt.shape.size.toNat = block.stop.toNat
  bound : block.stop ≤ attempt.shape.upperBound

namespace World

variable {σ : Type} {manager : Manager σ} {name : String}

/-- The conditional writes that have taken effect are what the cells show, and the acknowledged
ones among them are the granted blocks. -/
structure Sound (store : IdStore manager name) (world : World σ) : Prop where
  referring : ∀ authority ∈ world.authorities, authority.store = store.reference world.state
  bidding : ∀ attempt ∈ world.attempts, attempt.Sound (store.reference world.state)
  cells : ∀ partitionId namespaceId, store.cell world partitionId namespaceId =
    (world.written partitionId namespaceId).getLast?.map fun block => Bytes.ofUInt64 block.stop
  tiled : ∀ partitionId namespaceId, Tiles 0 (world.written partitionId namespaceId)
    (store.watermark world partitionId namespaceId)
  rising : ∀ swap ∈ world.swaps, swap.block.start ≤ swap.block.stop
  told : world.granted.map Prod.snd =
    (world.swaps.filter fun swap => swap.acknowledged).map Swap.block
  shaped : ∀ grant ∈ world.granted, grant.1.Fits grant.2

/-- Every cell can be read. -/
theorem Sound.watermarkOf_cell {store : IdStore manager name} {world : World σ}
    (sound : world.Sound store) (partitionId namespaceId : UInt32) :
    IdAuthority.watermarkOf (store.cell world partitionId namespaceId) =
      .ok (store.watermark world partitionId namespaceId) := by
  have readable : ∃ watermark,
      IdAuthority.watermarkOf (store.cell world partitionId namespaceId) = .ok watermark := by
    rw [sound.cells]
    cases (world.written partitionId namespaceId).getLast? with
    | none => exact ⟨0, rfl⟩
    | some block => exact ⟨block.stop, IdAuthority.watermarkOf_ofUInt64 block.stop⟩
  obtain ⟨watermark, read⟩ := readable
  rw [IdStore.watermark, read]
  rfl

theorem sound_start {store : IdStore manager name} {state : σ}
    (empty : store.table state = .empty) : (World.start state).Sound store where
  referring := nofun
  bidding := nofun
  cells partitionId namespaceId := by
    show (store.table state).watermarkCell partitionId namespaceId = none
    rw [empty]
    rfl
  tiled partitionId namespaceId := by
    show (0 : UInt64) = ((IdAuthority.watermarkOf
      ((store.table state).watermarkCell partitionId namespaceId)).toOption).getD 0
    rw [empty]
    rfl
  rising := nofun
  told := rfl
  shaped := nofun

/-! ### What the halves of an attempt do -/

/-- What the first half of an attempt can come to. -/
inductive BidResult (store : IdStore manager name) (world : World σ) (attempt : Attempt) :
    Result Bid → Prop where
  | placed {stop : UInt64}
      (fits : IdAuthority.blockEnd?
        (store.watermark world attempt.partitionId attempt.namespaceId) attempt.shape = some stop) :
      BidResult store world attempt
        (.ok ⟨store.cell world attempt.partitionId attempt.namespaceId,
          store.watermark world attempt.partitionId attempt.namespaceId, stop⟩)
  | exhausted
      (exceeds : IdAuthority.blockEnd?
        (store.watermark world attempt.partitionId attempt.namespaceId) attempt.shape = none) :
      BidResult store world attempt (.error attempt.exhaustion)
  | failed {failure : StoreError} (foreign : failure.isExhaustion = false) :
      BidResult store world attempt (.error failure)

/-- A reading that goes through sees the watermark, and finds out whether there is a block. -/
theorem Sound.bid_of_shown {store : IdStore manager name} {world : World σ}
    (sound : world.Sound store) {attempt : Attempt}
    (shown : manager.getSlice attempt.authority.store attempt.key
        (Slice.ofPrefix IdAuthority.watermarkColumn) world.state =
      (.ok (Table.slice (store.table world.state) attempt.key
        (Slice.ofPrefix IdAuthority.watermarkColumn)), world.state)) :
    attempt.authority.bid manager attempt.partitionId attempt.namespaceId world.state =
      match IdAuthority.blockEnd?
        (store.watermark world attempt.partitionId attempt.namespaceId) attempt.shape with
      | none => (.error attempt.exhaustion, world.state)
      | some stop => (.ok ⟨store.cell world attempt.partitionId attempt.namespaceId,
          store.watermark world attempt.partitionId attempt.namespaceId, stop⟩, world.state) := by
  have read := IdAuthority.readWatermark_of_slice shown
    (sound.watermarkOf_cell attempt.partitionId attempt.namespaceId)
  rw [IdAuthority.bid, Action.bind_of_ok read]
  show (match IdAuthority.blockEnd?
      (store.watermark world attempt.partitionId attempt.namespaceId) attempt.shape with
    | none => throw attempt.exhaustion
    | some stop => return ⟨store.cell world attempt.partitionId attempt.namespaceId,
        store.watermark world attempt.partitionId attempt.namespaceId, stop⟩ :
    Action σ Bid) world.state = _
  cases IdAuthority.blockEnd?
    (store.watermark world attempt.partitionId attempt.namespaceId) attempt.shape with
  | none => rfl
  | some stop => rfl

theorem Sound.bid_result {store : IdStore manager name} {world : World σ}
    (sound : world.Sound store) {attempt : Attempt}
    (known : attempt.Sound (store.reference world.state)) (glitch : Glitch) :
    ∃ outcome, glitch.around
        (attempt.authority.bid manager attempt.partitionId attempt.namespaceId) world.state =
        (outcome, world.state) ∧
      BidResult store world attempt outcome := by
  have undisturbed : ∃ outcome,
      attempt.authority.bid manager attempt.partitionId attempt.namespaceId world.state =
        (outcome, world.state) ∧
      BidResult store world attempt outcome := by
    rcases store.reads world.state attempt.key (Slice.ofPrefix IdAuthority.watermarkColumn) with
      shown | ⟨failure, failed, foreign⟩
    · rw [← known.store] at shown
      rw [sound.bid_of_shown shown]
      cases ends : IdAuthority.blockEnd?
        (store.watermark world attempt.partitionId attempt.namespaceId) attempt.shape with
      | none => exact ⟨_, rfl, .exhausted ends⟩
      | some stop => exact ⟨_, rfl, .placed ends⟩
    · rw [← known.store] at failed
      exact ⟨_, Action.bind_of_error (IdAuthority.readWatermark_of_error failed),
        .failed foreign⟩
  obtain ⟨outcome, called, result⟩ := undisturbed
  cases glitch with
  | none => exact ⟨outcome, called, result⟩
  | before text => exact ⟨_, rfl, .failed rfl⟩
  | after text =>
      refine ⟨.error (.temporary text), ?_, .failed rfl⟩
      show (Except.error (StoreError.temporary text),
        (attempt.authority.bid manager attempt.partitionId attempt.namespaceId
          world.state).2) = _
      rw [called]

/-- What the second half of an attempt can come to: its outcome, and the table behind it. -/
inductive RedeemResult (store : IdStore manager name) (world : World σ) (attempt : Attempt)
    (bid : Bid) : Result (Option IdBlock) → Table → Prop where
  | written
      (found : store.cell world attempt.partitionId attempt.namespaceId = bid.cell) :
      RedeemResult store world attempt bid
        (.ok (some (attempt.block bid)))
        ((store.table world.state).putWatermark attempt.partitionId attempt.namespaceId bid.stop)
  | lost (other : store.cell world attempt.partitionId attempt.namespaceId ≠ bid.cell) :
      RedeemResult store world attempt bid (.ok none) (store.table world.state)
  | failed {failure : StoreError} (foreign : failure.isExhaustion = false) :
      RedeemResult store world attempt bid (.error failure) (store.table world.state)

/-- The second half of an attempt writes its block or nothing. -/
theorem redeem_result (store : IdStore manager name) (world : World σ) {attempt : Attempt}
    (known : attempt.Sound (store.reference world.state)) (bid : Bid) :
    ∃ outcome after,
      attempt.authority.redeem manager attempt.partitionId attempt.namespaceId bid world.state =
        (outcome, after) ∧
      store.reference after = store.reference world.state ∧
      RedeemResult store world attempt bid outcome (store.table after) := by
  obtain ⟨outcome, after, swapped, reference, result⟩ := store.swaps world.state attempt.key
    IdAuthority.watermarkColumn bid.cell (Bytes.ofUInt64 bid.stop)
  rw [← known.store] at swapped
  generalize behind : store.table after = table at result
  cases result with
  | written found =>
      refine ⟨_, after, Action.bind_of_ok swapped, reference, ?_⟩
      rw [behind]
      exact .written found
  | lost other =>
      refine ⟨_, after, Action.bind_of_ok swapped, reference, ?_⟩
      rw [behind]
      exact .lost other
  | failed foreign =>
      refine ⟨_, after, Action.bind_of_error swapped, reference, ?_⟩
      rw [behind]
      exact .failed foreign

/-! ### What one event does -/

def attempt? (world : World σ) : IdEvent → Option Attempt
  | .bid index _ => world.attempts[index]?
  | .redeemed index _ => world.attempts[index]?
  | _ => none

/-- There is no block above the watermark within the bound of the attempt. -/
def Exceeds (store : IdStore manager name) (world : World σ) (attempt : Attempt) : Prop :=
  attempt.shape.upperBound.toNat <
    (store.watermark world attempt.partitionId attempt.namespaceId).toNat +
      attempt.shape.size.toNat

/-- An attempt that ends for want of identifiers has changed nothing, and is right about it. -/
def EndsRightly (store : IdStore manager name) (world after : World σ) : Prop :=
  ∀ attempt failure, after.ended = world.ended ++ [(attempt, .error failure)] →
    failure.isExhaustion = true →
      after.state = world.state ∧ failure = attempt.exhaustion ∧ Exceeds store world attempt

/-- What an event keeps: authorities and attempts refer to the store. -/
structure Kept (store : IdStore manager name) (world after : World σ) : Prop where
  reference : store.reference after.state = store.reference world.state
  referring : ∀ authority ∈ after.authorities, authority.store = store.reference world.state
  bidding : ∀ attempt ∈ after.attempts, attempt.Sound (store.reference world.state)
  exhausted : EndsRightly store world after

/-- The blocks granted by the outcome of an attempt: one or none. -/
def grant (attempt : Attempt) : Result (Option IdBlock) → List (Attempt × IdBlock)
  | .ok (some block) => [(attempt, block)]
  | _ => []

/-- The conditional write of an attempt has taken effect; its block is granted if the attempt has
been told. -/
structure Wrote (store : IdStore manager name) (world : World σ) (attempt : Attempt) (bid : Bid)
    (acknowledged : Bool) (after : World σ) : Prop where
  known : attempt.Sound (store.reference world.state)
  placed : attempt.bid = some bid
  found : store.cell world attempt.partitionId attempt.namespaceId = bid.cell
  table : store.table after.state = (store.table world.state).putWatermark
    attempt.partitionId attempt.namespaceId bid.stop
  swaps : after.swaps = world.swaps ++ [⟨attempt.block bid, acknowledged⟩]
  granted : after.granted =
    world.granted ++ if acknowledged then [(attempt, attempt.block bid)] else []

/-- What an event can come to: nothing is written and nothing granted, or the conditional write
of an attempt takes effect. -/
inductive StepResult (store : IdStore manager name) (world : World σ) (event : IdEvent)
    (after : World σ) : Prop where
  | quiet (kept : world.Kept store after)
      (table : store.table after.state = store.table world.state)
      (swaps : after.swaps = world.swaps) (granted : after.granted = world.granted)
  | wrote {attempt : Attempt} {bid : Bid} {acknowledged : Bool} (kept : world.Kept store after)
      (concerned : world.attempt? event = some attempt)
      (write : Wrote store world attempt bid acknowledged after)

theorem granted_finish (world : World σ) (index : Nat) (attempt : Attempt)
    (outcome : Result (Option IdBlock)) (state : σ) :
    (world.finish index attempt outcome state).granted =
      world.granted ++ grant attempt outcome := by
  rw [granted, finish, List.filterMap_append]
  cases outcome with
  | error failure => rfl
  | ok block? =>
      cases block? with
      | none => rfl
      | some block => rfl

/-- Where no attempt ends, none ends for want of identifiers. -/
theorem kept_of_ended {store : IdStore manager name} {world after : World σ}
    (reference : store.reference after.state = store.reference world.state)
    (referring : ∀ authority ∈ after.authorities, authority.store = store.reference world.state)
    (bidding : ∀ attempt ∈ after.attempts, attempt.Sound (store.reference world.state))
    (ended : after.ended = world.ended) : world.Kept store after := by
  refine ⟨reference, referring, bidding, fun attempt failure longer _ => ?_⟩
  rw [ended, List.self_eq_append_right] at longer
  exact absurd longer (List.cons_ne_nil _ _)

theorem Sound.kept_finish {store : IdStore manager name} {world : World σ}
    (sound : world.Sound store) (index : Nat) {attempt : Attempt}
    {outcome : Result (Option IdBlock)} {state : σ}
    (reference : store.reference state = store.reference world.state)
    (right : ∀ failure, outcome = .error failure → failure.isExhaustion = true →
      state = world.state ∧ failure = attempt.exhaustion ∧ Exceeds store world attempt) :
    world.Kept store (world.finish index attempt outcome state) where
  reference := reference
  referring := sound.referring
  bidding other member := sound.bidding other (List.mem_of_mem_eraseIdx member)
  exhausted other failure longer exhaustion := by
    have last := List.singleton_inj.1 (List.append_cancel_left longer)
    obtain ⟨rfl, same⟩ := Prod.mk.inj last
    exact right failure same exhaustion

/-- An attempt that ends with an error, and has written nothing, is a quiet event. -/
theorem Sound.finish_error_result {store : IdStore manager name} {world : World σ}
    (sound : world.Sound store) (event : IdEvent) (index : Nat) {attempt : Attempt}
    {failure : StoreError}
    (right : failure.isExhaustion = true →
      failure = attempt.exhaustion ∧ Exceeds store world attempt) :
    StepResult store world event
      (world.finish index attempt (.error failure) world.state) := by
  refine .quiet (sound.kept_finish index rfl fun other same exhaustion => ?_) rfl rfl ?_
  · rw [← Except.error.inj same] at exhaustion ⊢
    exact ⟨rfl, right exhaustion⟩
  · rw [granted_finish]
    exact List.append_nil _

theorem Sound.stepBid_result {store : IdStore manager name} {world : World σ}
    (sound : world.Sound store) {attempt : Attempt}
    (known : attempt.Sound (store.reference world.state)) (event : IdEvent) (index : Nat)
    (glitch : Glitch) :
    StepResult store world event (world.stepBid manager index attempt glitch) := by
  obtain ⟨outcome, called, result⟩ := sound.bid_result known glitch
  rw [stepBid, called]
  cases outcome with
  | error failure =>
      refine sound.finish_error_result event index fun exhaustion => ?_
      cases result with
      | exhausted exceeds => exact ⟨rfl, IdAuthority.blockEnd?_eq_none_iff.1 exceeds⟩
      | failed foreign => exact absurd exhaustion (ne_true_of_eq_false foreign)
  | ok bid =>
      refine .quiet (kept_of_ended rfl sound.referring (fun other member => ?_) rfl) rfl rfl rfl
      rcases List.mem_or_eq_of_mem_set member with earlier | rfl
      · exact sound.bidding other earlier
      · refine ⟨known.store, fun made same => ?_⟩
        rw [← Option.some.inj same]
        cases result with
        | placed fits => exact ⟨sound.watermarkOf_cell _ _, fits⟩

/-- The conditional write of an attempt has been carried out, and its outcome is reported, or an
error is instead. -/
theorem Sound.record_result {store : IdStore manager name} {world : World σ}
    (sound : world.Sound store) {attempt : Attempt}
    (known : attempt.Sound (store.reference world.state)) {bid : Bid}
    (placed : attempt.bid = some bid) {event : IdEvent}
    (concerned : world.attempt? event = some attempt) (index : Nat)
    {outcome reported : Result (Option IdBlock)} {after : σ}
    (reference : store.reference after = store.reference world.state)
    (result : RedeemResult store world attempt bid outcome (store.table after))
    {acknowledged : Bool}
    (told : grant attempt reported = if acknowledged then grant attempt outcome else [])
    (foreign : ∀ failure, reported = .error failure → failure.isExhaustion = false) :
    StepResult store world event
      ((world.finish index attempt reported after).record acknowledged outcome) := by
  have kept : world.Kept store (world.finish index attempt reported after) :=
    sound.kept_finish index reference fun failure same exhaustion =>
      absurd exhaustion (ne_true_of_eq_false (foreign failure same))
  have granted := granted_finish world index attempt reported after
  rw [told] at granted
  generalize behind : store.table after = table at result
  cases result with
  | written found =>
      exact .wrote ⟨kept.reference, kept.referring, kept.bidding, kept.exhausted⟩ concerned
        ⟨known, placed, found, behind, rfl, granted⟩
  | lost other =>
      refine .quiet kept behind rfl (granted.trans ?_)
      rw [show grant attempt (.ok none) = [] from rfl, ite_self, List.append_nil]
  | failed foreign =>
      refine .quiet kept behind rfl (granted.trans ?_)
      rw [show ∀ failure, grant attempt (.error failure) = [] from fun _ => rfl, ite_self,
        List.append_nil]

theorem Sound.stepRedeem_result {store : IdStore manager name} {world : World σ}
    (sound : world.Sound store) {attempt : Attempt}
    (known : attempt.Sound (store.reference world.state)) {bid : Bid}
    (placed : attempt.bid = some bid) {event : IdEvent}
    (concerned : world.attempt? event = some attempt) (index : Nat) (glitch : Glitch) :
    StepResult store world event (world.stepRedeem manager index attempt bid glitch) := by
  obtain ⟨outcome, after, called, reference, result⟩ := redeem_result store world known bid
  rw [stepRedeem_eq called]
  cases glitch with
  | none =>
      refine sound.record_result known placed concerned index reference result rfl ?_
      intro failure same
      rw [same] at result
      generalize store.table after = table at result
      cases result with
      | failed foreign => exact foreign
  | before text => exact sound.finish_error_result event index nofun
  | after text =>
      refine sound.record_result known placed concerned index reference result rfl ?_
      intro failure same
      rw [← Except.error.inj same]
      rfl

/-- Opening an authority makes one over the store, or fails, and leaves the store as it is. -/
theorem create_result (store : IdStore manager name) (state : σ) (sizer : BlockSizer)
    (options : IdAuthorityOptions) :
    ∃ outcome,
      IdAuthority.create manager sizer { options with storeName := name } state =
        (outcome, state) ∧
      ∀ authority, outcome = .ok authority → authority.store = store.reference state := by
  unfold IdAuthority.create
  cases manager.features.conditionalWrites with
  | false => exact ⟨_, rfl, nofun⟩
  | true =>
      rcases store.opens state with opened | ⟨failure, failed⟩
      · refine ⟨_, Action.bind_of_ok opened, fun authority made => ?_⟩
        rw [← Except.ok.inj made]
      · exact ⟨_, Action.bind_of_error failed, nofun⟩

/-- Every event comes to one of the two. -/
theorem Sound.step_result {store : IdStore manager name} {world : World σ}
    (sound : world.Sound store) (event : IdEvent) :
    StepResult store world event (world.step manager name event) := by
  have unchanged : StepResult store world event world :=
    .quiet (kept_of_ended rfl sound.referring sound.bidding rfl) rfl rfl rfl
  cases event with
  | opened sizer options =>
      obtain ⟨outcome, made, refers⟩ := create_result store world.state sizer options
      rw [step, made]
      cases outcome with
      | error failure => exact unchanged
      | ok authority =>
          refine .quiet (kept_of_ended rfl (fun other member => ?_) sound.bidding rfl) rfl rfl rfl
          rcases List.mem_append.1 member with earlier | added
          · exact sound.referring other earlier
          · rw [List.mem_singleton.1 added]
            exact refers authority rfl
  | closed index =>
      refine .quiet (kept_of_ended rfl (fun other member => ?_) sound.bidding rfl) rfl rfl rfl
      have modified : other ∈ world.authorities.modify index IdAuthority.close := member
      obtain ⟨place, found⟩ := List.mem_iff_getElem?.1 modified
      rw [List.getElem?_modify] at found
      obtain ⟨earlier, held, rfl⟩ := Option.map_eq_some_iff.1 found
      have refers := sound.referring earlier (List.mem_of_getElem? held)
      by_cases same : index = place
      · rw [if_pos same]
        exact refers
      · rw [if_neg same]
        exact refers
  | admitted index partitionId namespaceId =>
      rw [step]
      split
      · rename_i authority found
        split
        · refine .quiet (kept_of_ended rfl sound.referring (fun other member => ?_) rfl) rfl rfl rfl
          rcases List.mem_append.1 member with earlier | added
          · exact sound.bidding other earlier
          · rw [List.mem_singleton.1 added]
            exact ⟨sound.referring authority (List.mem_of_getElem? found),
              fun _ same => absurd same.symm (Option.some_ne_none _)⟩
        · exact unchanged
      · exact unchanged
  | bid index glitch =>
      rw [step]
      split
      · rename_i attempt found
        split
        · exact sound.stepBid_result (sound.bidding attempt (List.mem_of_getElem? found)) _ index
            glitch
        · exact unchanged
      · exact unchanged
  | redeemed index glitch =>
      rw [step]
      split
      · rename_i attempt found
        split
        · rename_i bid placed
          have concerned : world.attempt? (.redeemed index glitch) = some attempt := found
          exact sound.stepRedeem_result (sound.bidding attempt (List.mem_of_getElem? found))
            placed concerned index glitch
        · exact unchanged
      · exact unchanged

/-! ### What events preserve -/

section Cells

variable {store : IdStore manager name} {world after : World σ}

theorem watermark_of_cell {partitionId namespaceId : UInt32} {watermark : UInt64}
    (cell : IdAuthority.watermarkOf (store.cell world partitionId namespaceId) = .ok watermark) :
    store.watermark world partitionId namespaceId = watermark := by
  rw [IdStore.watermark, cell]
  rfl

theorem cell_of_table (table : store.table after.state = store.table world.state)
    (partitionId namespaceId : UInt32) :
    store.cell after partitionId namespaceId = store.cell world partitionId namespaceId := by
  rw [IdStore.cell, table]
  rfl

theorem watermark_of_table (table : store.table after.state = store.table world.state)
    (partitionId namespaceId : UInt32) :
    store.watermark after partitionId namespaceId =
      store.watermark world partitionId namespaceId := by
  rw [IdStore.watermark, cell_of_table table]
  rfl

theorem written_of_swaps (swaps : after.swaps = world.swaps) (partitionId namespaceId : UInt32) :
    after.written partitionId namespaceId = world.written partitionId namespaceId := by
  rw [written, swaps]
  rfl

namespace Wrote

variable {attempt : Attempt} {bid : Bid} {acknowledged : Bool}

/-- The written block starts at the watermark. -/
theorem start_eq (write : Wrote store world attempt bid acknowledged after) :
    bid.start = store.watermark world attempt.partitionId attempt.namespaceId := by
  obtain ⟨read, _⟩ := write.known.bid bid write.placed
  rw [← write.found] at read
  exact (watermark_of_cell read).symm

/-- A block that is written keeps to the size and the bound of its authority. -/
theorem fits (write : Wrote store world attempt bid acknowledged after) :
    attempt.Fits (attempt.block bid) := by
  obtain ⟨_, ends⟩ := write.known.bid bid write.placed
  obtain ⟨size, bound⟩ := IdAuthority.blockEnd?_eq_some_iff.1 ends
  exact ⟨rfl, rfl, size, bound⟩

theorem start_le_stop (write : Wrote store world attempt bid acknowledged after) :
    bid.start ≤ bid.stop := by
  have size : bid.start.toNat + attempt.shape.size.toNat = bid.stop.toNat := write.fits.size
  rw [UInt64.le_iff_toNat_le]
  omega

theorem cell_eq (write : Wrote store world attempt bid acknowledged after) :
    store.cell after attempt.partitionId attempt.namespaceId =
      some (Bytes.ofUInt64 bid.stop) := by
  rw [IdStore.cell, write.table]
  exact Table.watermarkCell_putWatermark _ _ _ _

/-- Behind the write of a block the watermark is its end. -/
theorem watermark_eq (write : Wrote store world attempt bid acknowledged after) :
    store.watermark after attempt.partitionId attempt.namespaceId = bid.stop := by
  apply watermark_of_cell
  rw [write.cell_eq]
  exact IdAuthority.watermarkOf_ofUInt64 bid.stop

/-- The cells of other partitions and namespaces are left as they are. -/
theorem cell_of_ne (write : Wrote store world attempt bid acknowledged after)
    {partitionId namespaceId : UInt32}
    (different : (partitionId, namespaceId) ≠ (attempt.partitionId, attempt.namespaceId)) :
    store.cell after partitionId namespaceId = store.cell world partitionId namespaceId := by
  rw [IdStore.cell, write.table]
  exact Table.watermarkCell_putWatermark_of_ne _ different _

/-- A write leaves the watermarks of other partitions and namespaces alone. -/
theorem watermark_of_ne (write : Wrote store world attempt bid acknowledged after)
    {partitionId namespaceId : UInt32}
    (different : (partitionId, namespaceId) ≠ (attempt.partitionId, attempt.namespaceId)) :
    store.watermark after partitionId namespaceId =
      store.watermark world partitionId namespaceId := by
  rw [IdStore.watermark, write.cell_of_ne different]
  rfl

theorem written_eq (write : Wrote store world attempt bid acknowledged after) :
    after.written attempt.partitionId attempt.namespaceId =
      world.written attempt.partitionId attempt.namespaceId ++ [attempt.block bid] := by
  have own : (attempt.block bid).isOf attempt.partitionId attempt.namespaceId = true :=
    IdBlock.isOf_iff.2 rfl
  rw [written, write.swaps, List.map_append, List.filter_append, List.map_singleton,
    List.filter_cons, if_pos own]
  rfl

theorem written_of_ne (write : Wrote store world attempt bid acknowledged after)
    {partitionId namespaceId : UInt32}
    (different : (partitionId, namespaceId) ≠ (attempt.partitionId, attempt.namespaceId)) :
    after.written partitionId namespaceId = world.written partitionId namespaceId := by
  have foreign : ¬ (attempt.block bid).isOf partitionId namespaceId = true :=
    fun own => different (IdBlock.isOf_iff.1 own)
  rw [written, write.swaps, List.map_append, List.filter_append, List.map_singleton,
    List.filter_cons, if_neg foreign]
  exact List.append_nil _

end Wrote

end Cells

/-- An event that neither writes nor grants keeps the record sound. -/
theorem Sound.of_quiet {store : IdStore manager name} {world after : World σ}
    (sound : world.Sound store) (kept : world.Kept store after)
    (table : store.table after.state = store.table world.state)
    (swaps : after.swaps = world.swaps) (granted : after.granted = world.granted) :
    after.Sound store where
  referring := by
    rw [kept.reference]
    exact kept.referring
  bidding := by
    rw [kept.reference]
    exact kept.bidding
  cells partitionId namespaceId := by
    rw [cell_of_table table, written_of_swaps swaps]
    exact sound.cells partitionId namespaceId
  tiled partitionId namespaceId := by
    rw [watermark_of_table table, written_of_swaps swaps]
    exact sound.tiled partitionId namespaceId
  rising := by
    rw [swaps]
    exact sound.rising
  told := by
    rw [swaps, granted]
    exact sound.told
  shaped := by
    rw [granted]
    exact sound.shaped

/-- A write lays its block on the last one of its partition and namespace, and moves no other
watermark. -/
theorem Sound.of_wrote {store : IdStore manager name} {world after : World σ}
    (sound : world.Sound store) (kept : world.Kept store after) {attempt : Attempt} {bid : Bid}
    {acknowledged : Bool} (write : Wrote store world attempt bid acknowledged after) :
    after.Sound store where
  referring := by
    rw [kept.reference]
    exact kept.referring
  bidding := by
    rw [kept.reference]
    exact kept.bidding
  cells partitionId namespaceId := by
    by_cases same : (partitionId, namespaceId) = (attempt.partitionId, attempt.namespaceId)
    · obtain ⟨rfl, rfl⟩ := Prod.mk.inj same
      rw [write.cell_eq, write.written_eq, List.getLast?_concat]
      rfl
    · rw [write.cell_of_ne same, write.written_of_ne same]
      exact sound.cells partitionId namespaceId
  tiled partitionId namespaceId := by
    by_cases same : (partitionId, namespaceId) = (attempt.partitionId, attempt.namespaceId)
    · obtain ⟨rfl, rfl⟩ := Prod.mk.inj same
      rw [write.watermark_eq, write.written_eq]
      have tiled := sound.tiled attempt.partitionId attempt.namespaceId
      have next : (attempt.block bid).start =
          store.watermark world attempt.partitionId attempt.namespaceId := write.start_eq
      exact tiled.append next
    · rw [write.watermark_of_ne same, write.written_of_ne same]
      exact sound.tiled partitionId namespaceId
  rising := by
    rw [write.swaps]
    intro swap member
    rcases List.mem_append.1 member with earlier | added
    · exact sound.rising swap earlier
    · rw [List.mem_singleton.1 added]
      exact write.start_le_stop
  told := by
    rw [write.swaps, write.granted, List.map_append, List.filter_append, List.map_append,
      sound.told]
    cases acknowledged with
    | false => rfl
    | true => rfl
  shaped := by
    rw [write.granted]
    intro grant member
    rcases List.mem_append.1 member with earlier | added
    · exact sound.shaped grant earlier
    · cases acknowledged with
      | false => exact absurd added List.not_mem_nil
      | true =>
          rw [List.mem_singleton.1 added]
          exact write.fits

/-- Every event keeps what the writes have to do with cells and grants. -/
theorem Sound.step {store : IdStore manager name} {world : World σ} (sound : world.Sound store)
    (event : IdEvent) : (world.step manager name event).Sound store := by
  have result := sound.step_result event
  cases result with
  | quiet kept table swaps granted => exact sound.of_quiet kept table swaps granted
  | wrote kept concerned write => exact sound.of_wrote kept write

/-- Every run keeps what the writes have to do with cells and grants. -/
theorem Sound.run {store : IdStore manager name} {world : World σ} (sound : world.Sound store)
    (events : List IdEvent) : (world.run manager name events).Sound store := by
  induction events generalizing world with
  | nil => exact sound
  | cons event events inductionHypothesis => exact inductionHypothesis (sound.step event)

end World

end GraphStore
