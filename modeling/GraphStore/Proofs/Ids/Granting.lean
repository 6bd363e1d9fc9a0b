import GraphStore.Proofs.Ids.Interleaving
import GraphStore.Proofs.Manager.Handles

/-!
Contract: requests for blocks by an authority that keeps its handle.

Owns what a request comes to in terms of the table behind the handle (`ClaimResult`): a granted
block starts at the watermark that this table holds and moves it, and a request without a block
changes nothing.
-/

namespace GraphStore

inductive ClaimResult (authority : IdAuthority) (partitionId namespaceId : UInt32)
    (stores : Generations) : Result (Option IdBlock) → Generations → Prop where
  | granted {start stop : UInt64}
      (read : IdAuthority.watermarkOf
        ((stores.table authority.store).watermarkCell partitionId namespaceId) = .ok start)
      (fits : IdAuthority.blockEnd? start (authority.sizer.shape namespaceId) = some stop) :
      ClaimResult authority partitionId namespaceId stores
        (.ok (some ⟨partitionId, namespaceId, start, stop⟩))
        (stores.change authority.store (IdAuthority.watermarkKey partitionId namespaceId)
          [⟨IdAuthority.watermarkColumn, Bytes.ofUInt64 stop⟩] [])
  | lost : ClaimResult authority partitionId namespaceId stores (.ok none) stores
  | failed {failure : StoreError} :
      ClaimResult authority partitionId namespaceId stores (.error failure) stores

/-- An attempt behind which another one follows has changed nothing. -/
theorem ClaimResult.stores_of_unsettled {authority : IdAuthority} {partitionId namespaceId : UInt32}
    {before after : Generations} {outcome : Result (Option IdBlock)}
    (result : ClaimResult authority partitionId namespaceId before outcome after)
    (unsettled : IdAuthority.invitesRetry outcome = true) : after = before := by
  cases result with
  | granted read fits => exact nomatch unsettled
  | lost => rfl
  | failed => rfl

namespace IdAuthority

variable {σ : Type} {manager : Manager σ} {authority : IdAuthority}
  {partitionId namespaceId : UInt32} (admitted : authority.admits namespaceId = true)
  {state after : σ}
include admitted

/-- A request whose first attempt does not invite another one is settled with its outcome. -/
theorem getIdBlock_of_settled {outcome : Result (Option IdBlock)}
    (claimed : authority.tryClaim manager partitionId namespaceId state = (outcome, after))
    (settled : invitesRetry outcome = false) (timeout : Nat) :
    authority.getIdBlock manager partitionId namespaceId timeout state =
      (settle (.idConflict partitionId namespaceId (UInt64.ofNat timeout)) outcome, after) := by
  have told : (authority.tryClaim manager partitionId namespaceId).outcome state =
      (.ok outcome, after) := by
    rw [Action.outcome_apply, claimed]
  have once : ¬ (invitesRetry outcome = true ∧ 0 < timeout) := by
    rw [settled]
    exact fun again => nomatch again.1
  rw [getIdBlock_of_admitted authority manager partitionId admitted, attempts,
    Action.bind_of_ok told]
  simp only [dif_neg once]
  rfl

/-- A request whose first attempt gets a block is settled with it. -/
theorem getIdBlock_of_claimed {block : IdBlock}
    (claimed : authority.tryClaim manager partitionId namespaceId state =
      (.ok (some block), after)) (timeout : Nat) :
    authority.getIdBlock manager partitionId namespaceId timeout state = (.ok block, after) :=
  getIdBlock_of_settled admitted claimed rfl timeout

end IdAuthority

namespace HandleBackend

variable {σ : Type} {manager : Manager σ} (backend : HandleBackend manager)
  (authority : IdAuthority) (partitionId namespaceId : UInt32)

theorem readWatermark_result (state : σ) : ∃ outcome,
    authority.readWatermark manager (IdAuthority.watermarkKey partitionId namespaceId) state =
        (outcome, state) ∧
      ∀ cell watermark, outcome = .ok (cell, watermark) →
        IdAuthority.watermarkOf (((backend.stores state).table authority.store).watermarkCell
          partitionId namespaceId) = .ok watermark := by
  rcases backend.reads state authority.store (IdAuthority.watermarkKey partitionId namespaceId)
    (Slice.ofPrefix IdAuthority.watermarkColumn) with shown | ⟨failure, failed⟩
  · cases encoded : IdAuthority.watermarkOf (((backend.stores state).table
      authority.store).watermarkCell partitionId namespaceId) with
    | ok watermark =>
        refine ⟨_, IdAuthority.readWatermark_of_slice shown encoded, ?_⟩
        intro cell other same
        rw [(Prod.mk.inj (Except.ok.inj same)).2]
    | error failure =>
        obtain ⟨corrupted, failed⟩ := IdAuthority.readWatermark_of_corrupted shown encoded
        exact ⟨_, failed, nofun⟩
  · exact ⟨_, IdAuthority.readWatermark_of_error failed, nofun⟩

theorem tryClaim_result (state : σ) : ∃ outcome after,
    authority.tryClaim manager partitionId namespaceId state = (outcome, after) ∧
      ClaimResult authority partitionId namespaceId (backend.stores state) outcome
        (backend.stores after) := by
  obtain ⟨outcome, read, encoded⟩ :=
    backend.readWatermark_result authority partitionId namespaceId state
  cases outcome with
  | error failure => exact ⟨_, _, Action.bind_of_error read, .failed⟩
  | ok found =>
      obtain ⟨cell, start⟩ := found
      have shown := encoded cell start rfl
      rw [IdAuthority.tryClaim, Action.bind_of_ok read]
      cases fits : IdAuthority.blockEnd? start (authority.sizer.shape namespaceId) with
      | none =>
          simp only [fits]
          exact ⟨_, _, rfl, .failed⟩
      | some stop =>
          simp only [fits]
          obtain ⟨outcome, after, swapped, stores⟩ := backend.swaps state authority.store
            (IdAuthority.watermarkKey partitionId namespaceId) IdAuthority.watermarkColumn cell
            (Bytes.ofUInt64 stop)
          rcases outcome with failure | _ | _
          · refine ⟨_, _, Action.bind_of_error swapped, ?_⟩
            rw [stores]
            exact .failed
          · refine ⟨.ok none, after, Action.bind_of_ok swapped, ?_⟩
            rw [stores]
            exact .lost
          · refine ⟨.ok (some _), after, Action.bind_of_ok swapped, ?_⟩
            rw [stores]
            exact .granted shown fits

/-- Attempts that come before the one that settles the matter change nothing. -/
theorem attempts_result (timeout left backoff : Nat) (state : σ) : ∃ outcome after,
    authority.attempts manager partitionId namespaceId timeout left backoff state =
        (outcome, after) ∧
      ∀ block, outcome = .ok block → ClaimResult authority partitionId namespaceId
        (backend.stores state) (.ok (some block)) (backend.stores after) := by
  induction left using Nat.strongRecOn generalizing backoff state with
  | ind left inductionHypothesis =>
      obtain ⟨outcome, after, claimed, result⟩ :=
        backend.tryClaim_result authority partitionId namespaceId state
      have told : (authority.tryClaim manager partitionId namespaceId).outcome state =
          (.ok outcome, after) := by
        rw [Action.outcome_apply, claimed]
      rw [IdAuthority.attempts, Action.bind_of_ok told]
      by_cases again : IdAuthority.invitesRetry outcome = true ∧ 0 < left
      · simp only [dif_pos again]
        have fewer : left - min (max backoff 1) left < left := by omega
        have same : backend.stores after = backend.stores state :=
          result.stores_of_unsettled again.1
        rw [← same]
        exact inductionHypothesis _ fewer _ after
      · simp only [dif_neg again]
        refine ⟨_, _, rfl, fun block settles => ?_⟩
        rw [← IdAuthority.ok_of_settle settles]
        exact result

/-- A block that is granted has been claimed from the table behind the handle of the authority, and
it is not empty. -/
theorem getIdBlock_granted {timeout : Nat} {state after : σ} {block : IdBlock}
    (granted : authority.getIdBlock manager partitionId namespaceId timeout state =
      (.ok block, after)) :
    (authority.sizer.shape namespaceId).size ≠ 0 ∧
      ClaimResult authority partitionId namespaceId (backend.stores state) (.ok (some block))
        (backend.stores after) := by
  cases admitted : authority.admits namespaceId with
  | false =>
      obtain ⟨failure, refused⟩ :=
        authority.getIdBlock_of_refused manager partitionId admitted timeout state
      exact nomatch granted.symm.trans refused
  | true =>
      rw [authority.getIdBlock_of_admitted manager partitionId admitted] at granted
      obtain ⟨outcome, left, attempted, claims⟩ := backend.attempts_result authority partitionId
        namespaceId timeout timeout (max authority.options.initialBackoffMillis.toNat 1) state
      obtain ⟨rfl, rfl⟩ := Prod.mk.inj (attempted.symm.trans granted)
      refine ⟨?_, claims block rfl⟩
      rw [IdAuthority.admits, Bool.and_eq_true, decide_eq_true_eq] at admitted
      exact admitted.2

end HandleBackend

/-! ### Two requests -/

namespace ClaimResult

variable {authority other : IdAuthority} {partitionId namespaceId : UInt32}
  {before middle after : Generations} {first second : IdBlock}

/-- Blocks of a size that is not zero hold something. -/
theorem start_lt_stop (full : (authority.sizer.shape namespaceId).size ≠ 0)
    (result : ClaimResult authority partitionId namespaceId before (.ok (some first)) after) :
    first.start < first.stop := by
  cases result with
  | granted read fits =>
      have sum := (IdAuthority.blockEnd?_eq_some_iff.1 fits).1
      have some : (authority.sizer.shape namespaceId).size.toNat ≠ 0 := fun none =>
        full (UInt64.toNat_inj.1 none)
      apply UInt64.lt_iff_toNat_lt.2
      dsimp only
      omega

theorem read
    (result : ClaimResult authority partitionId namespaceId before (.ok (some first)) after) :
    IdAuthority.watermarkOf ((before.table authority.store).watermarkCell partitionId namespaceId) =
      .ok first.start := by
  cases result with
  | granted read fits => exact read

/-- A granted block is of the partition and the namespace that it was asked for. -/
theorem isOf
    (result : ClaimResult authority partitionId namespaceId before (.ok (some first)) after) :
    first.partitionId = partitionId ∧ first.namespaceId = namespaceId := by
  cases result with
  | granted read fits => exact ⟨rfl, rfl⟩

/-- The watermark that the second of two requests finds. -/
theorem watermark_between
    (earlier : ClaimResult authority partitionId namespaceId before (.ok (some first)) middle)
    (issued : authority.store.generation ≤ before.number)
    (otherIssued : other.store.generation ≤ before.number) :
    (middle.table other.store).watermarkCell partitionId namespaceId =
      if authority.store = other.store then some (Bytes.ofUInt64 first.stop)
      else (before.table other.store).watermarkCell partitionId namespaceId := by
  cases earlier with
  | granted read fits =>
      rw [Generations.table_change before issued otherIssued]
      split
      · exact Table.watermarkCell_putWatermark _ _ _ _
      · rfl

section Both

variable {last : Generations}
  (earlier : ClaimResult authority partitionId namespaceId before (.ok (some first)) middle)
  (later : ClaimResult other partitionId namespaceId middle (.ok (some second)) last)
  (issued : authority.store.generation ≤ before.number)
  (otherIssued : other.store.generation ≤ before.number)
include earlier later issued otherIssued

/-- Authorities with one handle get blocks side by side. -/
theorem start_of_same (same : authority.store = other.store) : second.start = first.stop := by
  have found := later.read
  rw [watermark_between earlier issued otherIssued, if_pos same,
    IdAuthority.watermarkOf_ofUInt64] at found
  exact (Except.ok.inj found).symm

/-- Authorities with different handles each go by a watermark of their own. -/
theorem start_of_different (different : authority.store ≠ other.store) :
    IdAuthority.watermarkOf ((before.table other.store).watermarkCell partitionId namespaceId) =
      .ok second.start := by
  have found := later.read
  rwa [watermark_between earlier issued otherIssued, if_neg different] at found

end Both

end ClaimResult

/-- Blocks that have something in them and start at one place overlap. -/
theorem IdBlock.overlaps_of_start {left right : IdBlock}
    (partitions : left.partitionId = right.partitionId)
    (namespaces : left.namespaceId = right.namespaceId) (starts : left.start = right.start)
    (leftFilled : left.start < left.stop) (rightFilled : right.start < right.stop) :
    left.overlaps right = true := by
  simp only [overlaps, Bool.and_eq_true, decide_eq_true_eq]
  exact ⟨⟨⟨partitions, namespaces⟩, starts ▸ rightFilled⟩, starts ▸ leftFilled⟩

/-- A block behind another one does not overlap it. -/
theorem IdBlock.not_overlaps_of_start {left right : IdBlock} (behind : right.start = left.stop) :
    left.overlaps right = false := by
  cases overlapping : left.overlaps right with
  | false => rfl
  | true =>
      simp only [overlaps, Bool.and_eq_true, decide_eq_true_eq] at overlapping
      exact absurd (behind ▸ overlapping.2) (UInt64.lt_irrefl _)

end GraphStore
