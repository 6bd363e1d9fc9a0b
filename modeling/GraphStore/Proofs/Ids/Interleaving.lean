import GraphStore.Proofs.Ids.Store

/-!
Contract: attempts of any number of authorities over one store, in any order of their steps.

Owns the two halves of an attempt (`IdAuthority.bid`, `IdAuthority.redeem`), transient errors
before and behind each of them (`Glitch`), and the world in which the halves of attempts
interleave (`World`, `World.step`). A whole request for a block is a run of that world
(`World.getIdBlock_run`).
-/

namespace GraphStore

/-! ### Halves of an attempt -/

/-- The cell that an attempt has read, the watermark in it, and the end of the block it wants. -/
structure Bid where
  cell : Option Bytes
  start : UInt64
  stop : UInt64
deriving DecidableEq, Repr

namespace IdAuthority

variable {σ : Type}

/-- The first half of an attempt: reads the watermark and looks whether there is a block. -/
def bid (authority : IdAuthority) (manager : Manager σ) (partitionId namespaceId : UInt32) :
    Action σ Bid := do
  let shape := authority.sizer.shape namespaceId
  let (cell, start) ← authority.readWatermark manager (watermarkKey partitionId namespaceId)
  match blockEnd? start shape with
  | none => throw (.idsExhausted partitionId namespaceId shape.upperBound)
  | some stop => return ⟨cell, start, stop⟩

/-- The second half of an attempt: writes the new watermark if the cell is still the one read. -/
def redeem (authority : IdAuthority) (manager : Manager σ) (partitionId namespaceId : UInt32)
    (bid : Bid) : Action σ (Option IdBlock) := do
  if ← authority.advance manager (watermarkKey partitionId namespaceId) bid.cell bid.stop then
    return some ⟨partitionId, namespaceId, bid.start, bid.stop⟩
  else return none

/-- An attempt is its two halves, with nothing in between. -/
theorem tryClaim_eq (authority : IdAuthority) (manager : Manager σ)
    (partitionId namespaceId : UInt32) :
    authority.tryClaim manager partitionId namespaceId = (do
      let bid ← authority.bid manager partitionId namespaceId
      authority.redeem manager partitionId namespaceId bid) := by
  funext state
  rcases read : authority.readWatermark manager (watermarkKey partitionId namespaceId) state with
    ⟨outcome, after⟩
  cases outcome with
  | error failure =>
      have noBid : authority.bid manager partitionId namespaceId state = (.error failure, after) :=
        Action.bind_of_error read
      rw [tryClaim, Action.bind_of_error read, Action.bind_of_error noBid]
  | ok found =>
      obtain ⟨cell, start⟩ := found
      rw [tryClaim, Action.bind_of_ok read]
      cases stop : blockEnd? start (authority.sizer.shape namespaceId) with
      | none =>
          have noBid : authority.bid manager partitionId namespaceId state =
              (.error (.idsExhausted partitionId namespaceId
                (authority.sizer.shape namespaceId).upperBound), after) := by
            rw [bid, Action.bind_of_ok read]
            simp only [stop]
            rfl
          rw [Action.bind_of_error noBid]
          simp only [stop]
          rfl
      | some stop' =>
          have placed : authority.bid manager partitionId namespaceId state =
              (.ok ⟨cell, start, stop'⟩, after) := by
            rw [bid, Action.bind_of_ok read]
            simp only [stop]
            rfl
          rw [Action.bind_of_ok placed]
          simp only [stop]
          rfl

/-- Whether a request for a block is taken on: the authority is open and its blocks hold
something. -/
def admits (authority : IdAuthority) (namespaceId : UInt32) : Bool :=
  !authority.closed && (authority.sizer.shape namespaceId).size ≠ 0

/-- A request that is taken on is the repetition of attempts. -/
theorem getIdBlock_of_admitted (authority : IdAuthority) (manager : Manager σ)
    (partitionId : UInt32) {namespaceId : UInt32} (admitted : authority.admits namespaceId = true)
    (timeout : Nat) (state : σ) :
    authority.getIdBlock manager partitionId namespaceId timeout state =
      authority.attempts manager partitionId namespaceId timeout timeout
        (max authority.options.initialBackoffMillis.toNat 1) state := by
  rw [admits, Bool.and_eq_true, Bool.not_eq_true', decide_eq_true_eq] at admitted
  obtain ⟨isOpen, full⟩ := admitted
  rw [getIdBlock, ensureOpen, isOpen]
  show (if (authority.sizer.shape namespaceId).size = 0 then _ else _ : Action σ IdBlock) state = _
  rw [if_neg full]

/-- A refused namespace fails before anything is read. -/
theorem getIdBlock_of_refused (authority : IdAuthority) (manager : Manager σ)
    (partitionId : UInt32) {namespaceId : UInt32} (refused : authority.admits namespaceId = false)
    (timeout : Nat) (state : σ) :
    ∃ failure, authority.getIdBlock manager partitionId namespaceId timeout state =
      (.error failure, state) := by
  rw [getIdBlock, ensureOpen]
  cases closed : authority.closed with
  | true => exact ⟨_, rfl⟩
  | false =>
      rw [admits, closed, Bool.not_false, Bool.true_and, decide_eq_false_iff_not,
        Decidable.not_not] at refused
      refine ⟨.invalidArgument (.zeroBlockSize namespaceId), ?_⟩
      show (if (authority.sizer.shape namespaceId).size = 0 then _ else _ : Action σ IdBlock)
        state = _
      rw [if_pos refused]
      rfl

/-- Only a granted block settles a request with a block. -/
theorem ok_of_settle {conflict : StoreError} {outcome : Result (Option IdBlock)} {block : IdBlock}
    (settles : settle conflict outcome = .ok block) : outcome = .ok (some block) := by
  cases outcome with
  | error failure => exact absurd settles nofun
  | ok block? =>
      cases block? with
      | none => exact absurd settles nofun
      | some other => rw [Except.ok.inj settles]

end IdAuthority

/-- How a transient error comes between a caller and the store: not at all, instead of the
call, or behind the call, which has then been carried out. -/
inductive Glitch where
  | none
  | before (text : String)
  | after (text : String)
deriving DecidableEq, Repr

def Glitch.around {σ α : Type} (call : Action σ α) : Glitch → Action σ α
  | .none => call
  | .before text => throw (.temporary text)
  | .after text => do
    let _ ← call.outcome
    throw (.temporary text)

/-! ### Interleavings -/

/-- An attempt under way, with its bid once the watermark has been read. -/
structure Attempt where
  authority : IdAuthority
  partitionId : UInt32
  namespaceId : UInt32
  bid : Option Bid
deriving DecidableEq, Repr

namespace Attempt

def shape (attempt : Attempt) : BlockShape := attempt.authority.sizer.shape attempt.namespaceId

def key (attempt : Attempt) : Bytes :=
  IdAuthority.watermarkKey attempt.partitionId attempt.namespaceId

def block (attempt : Attempt) (bid : Bid) : IdBlock :=
  ⟨attempt.partitionId, attempt.namespaceId, bid.start, bid.stop⟩

/-- The error of an attempt above whose watermark there is no block left. -/
def exhaustion (attempt : Attempt) : StoreError :=
  .idsExhausted attempt.partitionId attempt.namespaceId attempt.shape.upperBound

end Attempt

def IdBlock.isOf (block : IdBlock) (partitionId namespaceId : UInt32) : Bool :=
  block.partitionId = partitionId && block.namespaceId = namespaceId

theorem IdBlock.isOf_iff {block : IdBlock} {partitionId namespaceId : UInt32} :
    block.isOf partitionId namespaceId = true ↔
      (partitionId, namespaceId) = (block.partitionId, block.namespaceId) := by
  rw [isOf, Bool.and_eq_true, decide_eq_true_eq, decide_eq_true_eq, Prod.mk.injEq]
  exact ⟨fun ⟨partitions, namespaces⟩ => ⟨partitions.symm, namespaces.symm⟩,
    fun ⟨partitions, namespaces⟩ => ⟨partitions.symm, namespaces.symm⟩⟩

/-- A conditional write that has taken effect, of which its attempt may not have been told. -/
structure Swap where
  block : IdBlock
  acknowledged : Bool
deriving DecidableEq, Repr

/-- A backend with the authorities over one of its stores and their attempts, under way and
ended. What is recorded of the writes is for reasoning only: nothing depends on it. -/
structure World (σ : Type) where
  state : σ
  authorities : List IdAuthority
  attempts : List Attempt
  ended : List (Attempt × Result (Option IdBlock))
  swaps : List Swap

/-- What can happen next: an authority is opened or closed, a request for a block starts an
attempt or another one, or an attempt makes one of its halves. -/
inductive IdEvent where
  | opened (sizer : BlockSizer) (options : IdAuthorityOptions)
  | closed (authority : Nat)
  | admitted (authority : Nat) (partitionId namespaceId : UInt32)
  | bid (attempt : Nat) (glitch : Glitch)
  | redeemed (attempt : Nat) (glitch : Glitch)
deriving Repr

namespace World

variable {σ : Type}

def start (state : σ) : World σ := ⟨state, [], [], [], []⟩

def finish (world : World σ) (index : Nat) (attempt : Attempt)
    (outcome : Result (Option IdBlock)) (state : σ) : World σ :=
  { world with
    state := state
    attempts := world.attempts.eraseIdx index
    ended := world.ended ++ [(attempt, outcome)] }

/-- The world in which a conditional write has taken effect if there was one. -/
def record (world : World σ) (acknowledged : Bool) : Result (Option IdBlock) → World σ
  | .ok (some block) => { world with swaps := world.swaps ++ [⟨block, acknowledged⟩] }
  | _ => world

def stepBid (manager : Manager σ) (world : World σ) (index : Nat) (attempt : Attempt)
    (glitch : Glitch) : World σ :=
  match glitch.around
    (attempt.authority.bid manager attempt.partitionId attempt.namespaceId) world.state with
  | (.ok bid, state) =>
    { world with
      state := state
      attempts := world.attempts.set index { attempt with bid := some bid } }
  | (.error failure, state) => world.finish index attempt (.error failure) state

def stepRedeem (manager : Manager σ) (world : World σ) (index : Nat) (attempt : Attempt)
    (bid : Bid) (glitch : Glitch) : World σ :=
  let redeem := attempt.authority.redeem manager attempt.partitionId attempt.namespaceId bid
  let (outcome, state) := glitch.around redeem world.state
  let ended := world.finish index attempt outcome state
  match glitch with
  | .none => ended.record true (redeem world.state).1
  | .before _ => ended
  | .after _ => ended.record false (redeem world.state).1

/-- The world behind an event; one that names no authority or no attempt of the right kind
changes nothing. -/
def step (manager : Manager σ) (name : String) (world : World σ) : IdEvent → World σ
  | .opened sizer options =>
    match IdAuthority.create manager sizer { options with storeName := name } world.state with
    | (.ok authority, state) =>
      { world with state := state, authorities := world.authorities ++ [authority] }
    | (.error _, state) => { world with state := state }
  | .closed index =>
    { world with authorities := world.authorities.modify index IdAuthority.close }
  | .admitted index partitionId namespaceId =>
    match world.authorities[index]? with
    | some authority =>
      if authority.admits namespaceId then
        { world with
          attempts := world.attempts ++ [⟨authority, partitionId, namespaceId, none⟩] }
      else world
    | none => world
  | .bid index glitch =>
    match world.attempts[index]? with
    | some attempt =>
      match attempt.bid with
      | none => world.stepBid manager index attempt glitch
      | some _ => world
    | none => world
  | .redeemed index glitch =>
    match world.attempts[index]? with
    | some attempt =>
      match attempt.bid with
      | some bid => world.stepRedeem manager index attempt bid glitch
      | none => world
    | none => world

def run (manager : Manager σ) (name : String) (events : List IdEvent) (world : World σ) :
    World σ :=
  events.foldl (step manager name) world

/-- The blocks granted so far, oldest first, each with the attempt that got it. -/
def granted (world : World σ) : List (Attempt × IdBlock) :=
  world.ended.filterMap fun
    | (attempt, .ok (some block)) => some (attempt, block)
    | _ => none

/-- The granted blocks of a partition and namespace, oldest first. -/
def grantedOf (world : World σ) (partitionId namespaceId : UInt32) : List IdBlock :=
  (world.granted.map Prod.snd).filter fun block => block.isOf partitionId namespaceId

/-- The written blocks of a partition and namespace, oldest first. -/
def written (world : World σ) (partitionId namespaceId : UInt32) : List IdBlock :=
  (world.swaps.map Swap.block).filter fun block => block.isOf partitionId namespaceId

end World

namespace IdStore

variable {σ : Type} {manager : Manager σ} {name : String}

def cell (store : IdStore manager name) (world : World σ) (partitionId namespaceId : UInt32) :
    Option Bytes :=
  (store.table world.state).watermarkCell partitionId namespaceId

def watermark (store : IdStore manager name) (world : World σ)
    (partitionId namespaceId : UInt32) : UInt64 :=
  ((IdAuthority.watermarkOf (store.cell world partitionId namespaceId)).toOption).getD 0

end IdStore

/-! ### Requests as runs -/

namespace World

variable {σ : Type}

/-- The conditional write of an attempt, along what it comes to by itself. -/
theorem stepRedeem_eq {manager : Manager σ} {world : World σ} {attempt : Attempt} {bid : Bid}
    {outcome : Result (Option IdBlock)} {after : σ}
    (called : attempt.authority.redeem manager attempt.partitionId attempt.namespaceId bid
      world.state = (outcome, after)) (index : Nat) (glitch : Glitch) :
    world.stepRedeem manager index attempt bid glitch =
      match glitch with
      | .none => (world.finish index attempt outcome after).record true outcome
      | .before text => world.finish index attempt (.error (.temporary text)) world.state
      | .after text =>
        (world.finish index attempt (.error (.temporary text)) after).record false outcome := by
  cases glitch with
  | none =>
      unfold stepRedeem Glitch.around
      simp only [called]
  | before text => rfl
  | after text =>
      have around : (Glitch.after text).around (attempt.authority.redeem manager
          attempt.partitionId attempt.namespaceId bid) world.state =
          (.error (.temporary text), after) := by
        show (Except.error (StoreError.temporary text), (attempt.authority.redeem manager
          attempt.partitionId attempt.namespaceId bid world.state).2) = _
        rw [called]
      unfold stepRedeem
      simp only [around, called]

/-- What is recorded of a conditional write is recorded among the writes only. -/
theorem record_eq (world : World σ) (acknowledged : Bool) (outcome : Result (Option IdBlock)) :
    ∃ swaps, world.record acknowledged outcome = { world with swaps := swaps } := by
  cases outcome with
  | error failure => exact ⟨_, rfl⟩
  | ok block? =>
      cases block? with
      | none => exact ⟨_, rfl⟩
      | some block => exact ⟨_, rfl⟩

/-- The last of the attempts under way makes its first half. -/
theorem step_bid_last (manager : Manager σ) (name : String) {world : World σ} {attempt : Attempt}
    (unplaced : attempt.bid = none) {others : List Attempt}
    (entered : world.attempts = others ++ [attempt]) (glitch : Glitch) :
    world.step manager name (.bid others.length glitch) =
      world.stepBid manager others.length attempt glitch := by
  have last : world.attempts[others.length]? = some attempt := by
    rw [entered]
    exact List.getElem?_concat_length
  rw [step]
  simp only [last, unplaced]

theorem step_redeemed_last (manager : Manager σ) (name : String) {world : World σ}
    {attempt : Attempt} {bid : Bid} (placed : attempt.bid = some bid) {others : List Attempt}
    (entered : world.attempts = others ++ [attempt]) (glitch : Glitch) :
    world.step manager name (.redeemed others.length glitch) =
      world.stepRedeem manager others.length attempt bid glitch := by
  have last : world.attempts[others.length]? = some attempt := by
    rw [entered]
    exact List.getElem?_concat_length
  rw [step]
  simp only [last, placed]

/-- An authority has made attempts to get a block, and this is how the last of them has ended. -/
structure Attempted (world : World σ) (authority : IdAuthority) (partitionId namespaceId : UInt32)
    (outcome : Result (Option IdBlock)) (after : World σ) : Prop where
  authorities : after.authorities = world.authorities
  ended : ∃ others bid, after.ended =
    world.ended ++ others ++ [(⟨authority, partitionId, namespaceId, bid⟩, outcome)]

/-- An attempt without interruption is a run of two or three events. -/
theorem tryClaim_run (manager : Manager σ) (name : String) {world : World σ} {index : Nat}
    {authority : IdAuthority} (found : world.authorities[index]? = some authority)
    (partitionId : UInt32) {namespaceId : UInt32}
    (admitted : authority.admits namespaceId = true) :
    ∃ events outcome, authority.tryClaim manager partitionId namespaceId world.state =
        (outcome, (world.run manager name events).state) ∧
      world.Attempted authority partitionId namespaceId outcome
        (world.run manager name events) := by
  let attempt : Attempt := ⟨authority, partitionId, namespaceId, none⟩
  let entered : World σ := { world with attempts := world.attempts ++ [attempt] }
  have enters : world.step manager name (.admitted index partitionId namespaceId) = entered := by
    rw [step, found]
    exact if_pos admitted
  have bids : entered.step manager name (.bid world.attempts.length .none) =
      entered.stepBid manager world.attempts.length attempt .none :=
    step_bid_last manager name rfl rfl .none
  rcases read : authority.bid manager partitionId namespaceId world.state with ⟨outcome, after⟩
  have around : Glitch.none.around
      (attempt.authority.bid manager attempt.partitionId attempt.namespaceId) entered.state =
      (outcome, after) := read
  rw [stepBid, around] at bids
  cases outcome with
  | error failure =>
      refine ⟨[.admitted index partitionId namespaceId, .bid world.attempts.length .none],
        .error failure, ?_⟩
      rw [run, List.foldl_cons, List.foldl_cons, List.foldl_nil, enters, bids,
        IdAuthority.tryClaim_eq]
      refine ⟨Action.bind_of_error read, rfl, [], none, ?_⟩
      rw [List.append_nil]
      rfl
  | ok bid =>
      let placed : Attempt := { attempt with bid := some bid }
      have waiting : (world.attempts ++ [attempt]).set world.attempts.length placed =
          world.attempts ++ [placed] := by
        rw [List.set_append_right _ _ (Nat.le_refl _), Nat.sub_self]
        rfl
      let bidden : World σ :=
        { entered with state := after, attempts := world.attempts ++ [placed] }
      have bids' : entered.step manager name (.bid world.attempts.length .none) = bidden := by
        rw [bids]
        show { entered with state := after, attempts := _ } = bidden
        rw [waiting]
      have redeems : bidden.step manager name (.redeemed world.attempts.length .none) =
          bidden.stepRedeem manager world.attempts.length placed bid .none :=
        step_redeemed_last manager name rfl rfl .none
      rcases redeemed : authority.redeem manager partitionId namespaceId bid after with
        ⟨outcome, final⟩
      have called : placed.authority.redeem manager placed.partitionId placed.namespaceId bid
          bidden.state = (outcome, final) := redeemed
      obtain ⟨swaps, recorded⟩ :=
        record_eq (bidden.finish world.attempts.length placed outcome final) true outcome
      refine ⟨[.admitted index partitionId namespaceId, .bid world.attempts.length .none,
        .redeemed world.attempts.length .none], outcome, ?_⟩
      rw [run, List.foldl_cons, List.foldl_cons, List.foldl_cons, List.foldl_nil, enters, bids',
        redeems, stepRedeem_eq called, IdAuthority.tryClaim_eq, Action.bind_of_ok read]
      show _ = (outcome, ((bidden.finish _ _ _ _).record _ _).state) ∧
        Attempted _ _ _ _ _ ((bidden.finish _ _ _ _).record _ _)
      rw [recorded]
      refine ⟨redeemed, rfl, [], some bid, ?_⟩
      rw [List.append_nil]
      rfl

theorem run_append (manager : Manager σ) (name : String) (earlier later : List IdEvent)
    (world : World σ) :
    world.run manager name (earlier ++ later) =
      (world.run manager name earlier).run manager name later :=
  List.foldl_append

theorem Attempted.append {world middle after : World σ} {authority : IdAuthority}
    {partitionId namespaceId : UInt32} {outcome last : Result (Option IdBlock)}
    (first : world.Attempted authority partitionId namespaceId outcome middle)
    (second : middle.Attempted authority partitionId namespaceId last after) :
    world.Attempted authority partitionId namespaceId last after := by
  obtain ⟨others, bid, ended⟩ := first.ended
  obtain ⟨more, lastBid, lastEnded⟩ := second.ended
  refine ⟨second.authorities.trans first.authorities,
    others ++ [(⟨authority, partitionId, namespaceId, bid⟩, outcome)] ++ more, lastBid, ?_⟩
  rw [lastEnded, ended]
  simp only [List.append_assoc]

/-- The repetition of attempts is a run, and settled by the last of them. -/
theorem attempts_run (manager : Manager σ) (name : String) {index : Nat} {authority : IdAuthority}
    (partitionId : UInt32) {namespaceId : UInt32}
    (admitted : authority.admits namespaceId = true) (timeout left backoff : Nat) {world : World σ}
    (found : world.authorities[index]? = some authority) :
    ∃ events outcome,
      world.Attempted authority partitionId namespaceId outcome
        (world.run manager name events) ∧
      authority.attempts manager partitionId namespaceId timeout left backoff world.state =
        (IdAuthority.settle (.idConflict partitionId namespaceId (UInt64.ofNat timeout)) outcome,
          (world.run manager name events).state) := by
  induction left using Nat.strongRecOn generalizing backoff world with
  | ind left inductionHypothesis =>
      obtain ⟨events, outcome, claimed, attempted⟩ :=
        tryClaim_run manager name found partitionId admitted
      have stillFound : (world.run manager name events).authorities[index]? = some authority := by
        rw [attempted.authorities]
        exact found
      have told : (authority.tryClaim manager partitionId namespaceId).outcome world.state =
          (.ok outcome, (world.run manager name events).state) := by
        rw [Action.outcome_apply, claimed]
      rw [IdAuthority.attempts, Action.bind_of_ok told]
      by_cases again : IdAuthority.invitesRetry outcome = true ∧ 0 < left
      · have fewer : left - min (max backoff 1) left < left := by omega
        obtain ⟨laterEvents, lastOutcome, reattempted, settled⟩ :=
          inductionHypothesis _ fewer
            (min (backoff * 2) (max authority.options.maxBackoffMillis.toNat 1)) stillFound
        refine ⟨events ++ laterEvents, lastOutcome, ?_⟩
        rw [run_append]
        refine ⟨attempted.append reattempted, ?_⟩
        rw [← settled]
        simp only [dif_pos again]
      · refine ⟨events, outcome, attempted, ?_⟩
        simp only [dif_neg again]
        rfl

/-- A whole request is a run, and a block that it returns is the last one granted in the run. -/
theorem getIdBlock_run (manager : Manager σ) (name : String) {world : World σ} {index : Nat}
    {authority : IdAuthority} (found : world.authorities[index]? = some authority)
    (partitionId namespaceId : UInt32) (timeout : Nat) :
    ∃ events outcome,
      authority.getIdBlock manager partitionId namespaceId timeout world.state =
        (outcome, (world.run manager name events).state) ∧
      ∀ block, outcome = .ok block →
        world.Attempted authority partitionId namespaceId (.ok (some block))
          (world.run manager name events) := by
  cases admitted : authority.admits namespaceId with
  | false =>
      obtain ⟨failure, refused⟩ :=
        authority.getIdBlock_of_refused manager partitionId admitted timeout world.state
      exact ⟨[], .error failure, refused, nofun⟩
  | true =>
      obtain ⟨events, outcome, attempted, settled⟩ :=
        attempts_run manager name partitionId admitted timeout timeout
          (max authority.options.initialBackoffMillis.toNat 1) found
      refine ⟨events, _,
        (authority.getIdBlock_of_admitted manager partitionId admitted timeout world.state).trans
          settled, fun block settles => ?_⟩
      rw [← IdAuthority.ok_of_settle settles]
      exact attempted

end World

end GraphStore
