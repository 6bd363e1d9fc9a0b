import GraphStore.Proofs.Counting
import GraphStore.Proofs.Encoding.Varints
import GraphStore.Proofs.Log.Payload

/-!
Contract: payloads as loops read them, whatever counts they claim.

A machine reads the columns and entries of a payload by loops that run as often as a number in the
payload says, up to `2 ^ 64 - 1` times. Owns these loops with a count of their turns
(`readByLoops`), the proof that they read what the decoder reads, and the bound on the turns: every
turn but a last, broken one passes a byte at least (`lowers_loop`), and the payload has three bytes
in front of the first one. So a payload is decoded within as many turns as it has bytes, and
decoding accepts exactly what was written (`payloads_exact`).
-/

namespace GraphStore

open Encoding
open GraphStore.Action

/-! ### Bytes that are passed -/

namespace Encoding

/-- What the reading of a number leaves, whatever comes of it, is an end of the source. -/
theorem behind_readVarintFrom_suffix (left index : Nat) (source : Bytes) :
    (readVarintFrom left index source).2 <:+ source := by
  induction left generalizing index source with
  | zero => exact List.suffix_refl source
  | succ left inductionHypothesis =>
      cases source with
      | nil => exact List.suffix_refl []
      | cons byte rest =>
          have behind : rest <:+ byte :: rest := List.suffix_cons byte rest
          have further := (inductionHypothesis (index + 1) rest).trans behind
          rw [readVarintFrom]
          split
          · exact behind
          · split
            · exact behind
            · split <;> rename_i read
              · rwa [read] at further
              · rwa [read] at further

theorem lowers_take (count : Nat) : Lowers Cursor.remaining (Read.take count) 0 0 := by
  refine .of_le fun cursor => ?_
  rw [Read.take]
  split
  · exact Nat.le_refl _
  · split
    · exact Nat.le_refl _
    · exact (List.drop_suffix count cursor.rest).length_le

theorem lowers_varint : Lowers Cursor.remaining Read.varint 1 0 := by
  constructor
  · intro cursor answer after ran
    rcases read : readVarint cursor.rest with ⟨damage | total, behind⟩
    · rw [read_varint_of_error read] at ran
      exact nomatch (Prod.mk.inj ran).1
    · rw [read_varint_of_ok read] at ran
      obtain ⟨-, rfl⟩ := Prod.mk.inj ran
      obtain ⟨number, split, closed, -⟩ := readVarint_eq_ok.1 read
      have passed := congrArg List.length split
      have filled := closed.length_pos
      rw [List.length_append] at passed
      simp only [Cursor.remaining, Cursor.advanceTo]
      omega
  · intro cursor failure after ran
    have bound : (Read.varint cursor).2.remaining ≤ cursor.remaining := by
      have behind := (behind_readVarintFrom_suffix maxVarintBytes 0 cursor.rest).length_le
      rw [Indexed.read_varint]
      exact behind
    rwa [ran] at bound

theorem lowers_finish (surplus : Nat → Damage) :
    Lowers Cursor.remaining (Read.finish surplus) 0 0 := by
  refine .of_le fun cursor => ?_
  rw [Read.finish]
  split <;> exact Nat.le_refl _

end Encoding

namespace RowChange

variable {α : Type}

theorem lowers_readSized : Lowers Cursor.remaining readSized 1 0 :=
  lowers_varint.bind fun length => lowers_take length.toNat

theorem lowers_readEntry : Lowers Cursor.remaining readEntry 1 0 := by
  have both : Lowers Cursor.remaining readEntry _ _ :=
    lowers_readSized.bind fun column => lowers_readSized.bind fun value =>
      .pure (⟨column, value⟩ : Entry)
  exact both.weaken (by decide) (by decide)

theorem lowers_readStore : Lowers Cursor.remaining readStore 1 0 := by
  have both : Lowers Cursor.remaining readStore (1 + 0) (max 0 (0 - 1)) := by
    refine lowers_readSized.bind fun name => ?_
    cases name.toString? with
    | some text => exact .pure text
    | none => exact .of_le fun cursor => Nat.le_refl cursor.remaining
  exact both

/-! ### Loops -/

/-- Appends `count` further items to those found, one in each turn; a turn that fails ends the loop.
Turns are counted. -/
def loop (item : Read α) : (count : Nat) → (found : List α) → Action (Nat × Cursor) (List α)
  | 0, found => return found
  | count + 1, found => do
    let next ← counted item
    loop item count (found ++ [next])

/-- The parts of a payload, the columns and entries by loops. -/
def readByLoops : Action (Nat × Cursor) RowChange := do
  let store ← uncounted readStore
  let key ← uncounted readSized
  let deletionCount ← uncounted Read.varint
  let deletions ← loop readSized deletionCount.toNat []
  let additionCount ← uncounted Read.varint
  let additions ← loop readEntry additionCount.toNat []
  uncounted (Read.finish .trailingRecord)
  return ⟨store, key, additions, deletions⟩

/-- What the loops answer to a payload, and the turns that they have begun. -/
def decodeByLoops (payload : Bytes) : Result RowChange × Nat :=
  let (outcome, turns, _) := readByLoops (0, Cursor.start payload)
  (outcome, turns)

theorem erases_loop_found (item : Read α) (count : Nat) (found : List α) :
    (loop item count found).Erases
      (readMany item count >>= fun others => pure (found ++ others)) := by
  induction count generalizing found with
  | zero =>
      rw [loop, readMany, pure_bind, List.append_nil]
      exact erases_pure found
  | succ count inductionHypothesis =>
      rw [loop, readMany, bind_assoc]
      refine (erases_counted item).bind fun next => ?_
      have others := inductionHypothesis (found ++ [next])
      simp only [List.append_assoc, List.singleton_append] at others
      rw [bind_assoc]
      simp only [pure_bind]
      exact others

theorem erases_loop (item : Read α) (count : Nat) :
    (loop item count []).Erases (readMany item count) := by
  have erases := erases_loop_found item count []
  simp only [List.nil_append, bind_pure] at erases
  exact erases

theorem erases_readByLoops : readByLoops.Erases read :=
  (erases_uncounted readStore).bind fun _ => (erases_uncounted readSized).bind fun _ =>
    (erases_uncounted Read.varint).bind fun _ => (erases_loop readSized _).bind fun _ =>
    (erases_uncounted Read.varint).bind fun _ => (erases_loop readEntry _).bind fun _ =>
    (erases_uncounted (Read.finish .trailingRecord)).bind fun _ => erases_pure _

/-- A loop begins no more turns than it passes bytes, but for a last one that fails. -/
theorem lowers_loop {item : Read α} (lowers : Lowers Cursor.remaining item 1 0) (count : Nat)
    (found : List α) : Lowers (Lowers.beside Cursor.remaining) (loop item count found) 0 1 := by
  induction count generalizing found with
  | zero => exact (Lowers.pure found).weaken (Nat.le_refl 0) (Nat.zero_le 1)
  | succ count inductionHypothesis =>
      have turn : Lowers (Lowers.beside Cursor.remaining) (counted item) 0 1 := lowers.counted
      exact turn.bind fun next => inductionHypothesis (found ++ [next])

/-- The lengths and counts in front of a loop pay for the turn that fails. -/
theorem lowers_readByLoops :
    Lowers (Lowers.beside Cursor.remaining) readByLoops 4 0 := by
  have parts : Lowers (Lowers.beside Cursor.remaining) readByLoops _ _ :=
    lowers_readStore.uncounted.bind fun _ => lowers_readSized.uncounted.bind fun _ =>
      lowers_varint.uncounted.bind fun _ => (lowers_loop lowers_readSized _ []).bind fun _ =>
      lowers_varint.uncounted.bind fun _ => (lowers_loop lowers_readEntry _ []).bind fun _ =>
      (lowers_finish .trailingRecord).uncounted.bind fun _ => .pure _
  exact parts.weaken (by decide) (by decide)

/-- A loop that comes to its end has begun a turn for every item. -/
theorem turns_of_loop {item : Read α} {count : Nat} {found answer : List α}
    {world after : Nat × Cursor} (ran : loop item count found world = (.ok answer, after)) :
    after.1 + found.length = world.1 + answer.length := by
  induction count generalizing found world with
  | zero =>
      obtain ⟨rfl, rfl⟩ := pure_eq_ok.1 ran
      rfl
  | succ count inductionHypothesis =>
      obtain ⟨next, middle, ranTurn, ranRest⟩ := bind_eq_ok.1 ran
      obtain ⟨-, rfl⟩ := Prod.mk.inj ranTurn
      have others := inductionHypothesis ranRest
      simp only [List.length_append, List.length_singleton] at others
      omega

theorem turns_of_readByLoops {change : RowChange} {world after : Nat × Cursor}
    (ran : readByLoops world = (.ok change, after)) :
    after.1 = world.1 + change.deletions.length + change.additions.length := by
  have kept {β : Type} {step : Read β} {answer : β} {before behind : Nat × Cursor}
      (ran : uncounted step before = (.ok answer, behind)) : behind.1 = before.1 := by
    obtain ⟨-, rfl⟩ := Prod.mk.inj ran
    rfl
  obtain ⟨store, _, ranStore, ran⟩ := bind_eq_ok.1 ran
  obtain ⟨key, _, ranKey, ran⟩ := bind_eq_ok.1 ran
  obtain ⟨deletionCount, _, ranDeletionCount, ran⟩ := bind_eq_ok.1 ran
  obtain ⟨deletions, _, ranDeletions, ran⟩ := bind_eq_ok.1 ran
  obtain ⟨additionCount, _, ranAdditionCount, ran⟩ := bind_eq_ok.1 ran
  obtain ⟨additions, _, ranAdditions, ran⟩ := bind_eq_ok.1 ran
  obtain ⟨_, _, ranFinish, ran⟩ := bind_eq_ok.1 ran
  obtain ⟨rfl, rfl⟩ := pure_eq_ok.1 ran
  have deletionTurns := turns_of_loop ranDeletions
  have additionTurns := turns_of_loop ranAdditions
  rw [List.length_nil, Nat.add_zero] at deletionTurns additionTurns
  rw [kept ranFinish, additionTurns, kept ranAdditionCount, deletionTurns, kept ranDeletionCount,
    kept ranKey, kept ranStore]

/-! ### Payloads -/

theorem decodeByLoops_fst (payload : Bytes) : (decodeByLoops payload).1 = decode payload :=
  (congrArg Prod.fst (erases_readByLoops (0, Cursor.start payload))).symm

theorem decodeByLoops_snd_le (payload : Bytes) : (decodeByLoops payload).2 ≤ payload.length := by
  have start : Lowers.beside Cursor.remaining (0, Cursor.start payload) = payload.length :=
    Nat.zero_add payload.length
  rcases ran : readByLoops (0, Cursor.start payload) with ⟨failure | change, turns, cursor⟩
  · have load := lowers_readByLoops.failed _ failure _ ran
    rw [start, Lowers.beside] at load
    rw [decodeByLoops, ran]
    exact Nat.le_trans (Nat.le_add_right turns cursor.remaining) load
  · have load := lowers_readByLoops.answered _ change _ ran
    rw [start, Lowers.beside] at load
    rw [decodeByLoops, ran]
    exact Nat.le_trans (Nat.le_add_right turns _) (Nat.le_of_add_right_le load)

theorem decodeByLoops_snd {payload : Bytes} {change : RowChange}
    (decoded : decode payload = .ok change) :
    (decodeByLoops payload).2 = change.deletions.length + change.additions.length := by
  have outcome := decodeByLoops_fst payload
  rcases ran : readByLoops (0, Cursor.start payload) with ⟨answer, turns, cursor⟩
  rw [decodeByLoops, ran] at outcome ⊢
  obtain rfl : answer = .ok change := outcome.trans decoded
  have counted := turns_of_readByLoops ran
  rwa [Nat.zero_add] at counted

/-- Payloads of row changes are exact. What was written is decoded, deletions and additions in their
order; no proper front of it is, and nothing with bytes behind it. Whatever a payload holds and
whatever counts it claims, the loops of a machine come to the same answer and begin at most as many
turns as the payload has bytes; if the payload is decoded they are as many as deletions and
additions together. Payloads in memory are shorter than a machine word counts. -/
theorem payloads_exact :
    (∀ change : RowChange, change.encode.length < Word.count 64 →
      decode change.encode = .ok change ∧
        (∀ front, front <+: change.encode → front ≠ change.encode →
          ∃ damage, decode front = .error (.corruption damage)) ∧
        ∀ behind, behind ≠ [] → decode (change.encode ++ behind) =
          .error (.corruption (.trailingRecord behind.length))) ∧
    ∀ payload, (decodeByLoops payload).1 = decode payload ∧
      (decodeByLoops payload).2 ≤ payload.length ∧
      ∀ change, decode payload = .ok change →
        (decodeByLoops payload).2 = change.deletions.length + change.additions.length := by
  constructor
  · intro change fits
    refine ⟨decode_encode fits, ?_, fun behind filled => decode_append fits filled⟩
    intro front isFront proper
    have inside : front.length < change.encode.length :=
      Nat.lt_of_le_of_ne isFront.length_le fun same => proper (isFront.eq_of_length same)
    rw [List.prefix_iff_eq_take.1 isFront]
    exact decode_take fits inside
  · intro payload
    exact ⟨decodeByLoops_fst payload, decodeByLoops_snd_le payload,
      fun change decoded => decodeByLoops_snd decoded⟩

def patchyChange : RowChange := ⟨"s", [1], [⟨[2], []⟩, ⟨[], [3]⟩], [[7], []]⟩

/-- A payload without store name and key that claims the greatest number of deletions. -/
def boastfulPayload : Bytes := [0, 0] ++ Bytes.ones 9 ++ [1]

theorem payloads_exact_boastful :
    patchyChange.encode.length < Word.count 64 ∧
      decode patchyChange.encode = .ok patchyChange ∧
      (decodeByLoops patchyChange.encode).2 = 4 ∧
      (∃ damage, decode [1, 115, 1, 1, 2, 1, 7] = .error (.corruption damage)) ∧
      decode (patchyChange.encode ++ [0]) = .error (.corruption (.trailingRecord 1)) ∧
      (decodeByLoops boastfulPayload).1 = decode boastfulPayload ∧
      (decodeByLoops boastfulPayload).2 ≤ 12 ∧
      decodeByLoops boastfulPayload = (.error (.corruption (.varintTruncated 0)), 1) := by
  have fits : patchyChange.encode.length < Word.count 64 := by decide +kernel
  obtain ⟨decoded, torn, longer⟩ := payloads_exact.1 patchyChange fits
  obtain ⟨-, -, turns⟩ := payloads_exact.2 patchyChange.encode
  obtain ⟨same, bounded, -⟩ := payloads_exact.2 boastfulPayload
  refine ⟨fits, decoded, turns patchyChange decoded, ?_, longer [0] (by decide), same, bounded,
    by decide +kernel⟩
  exact torn [1, 115, 1, 1, 2, 1, 7] (by decide +kernel) (by decide +kernel)

end RowChange

end GraphStore
