import GraphStore.Proofs.Manager.Quiet
import GraphStore.Proofs.Transaction.Failing
import GraphStore.Proofs.Transaction.Issuing

/-!
Contract: a transaction from its start to its end.

Owns the calls of a user (`TransactionCall`) among steps of others on the same stores, what one call
does (`TransactionCall.Performed`), and from it what any run comes to (`Transaction.lifecycle`). The
stores change in a commit only, a transaction that is over refuses every call and changes nothing,
and it has modifications just when a commit would issue a write.
-/

namespace GraphStore

/-- A call of the user of a transaction. -/
inductive TransactionCall where
  | getSlice (store : String) (key : Bytes) (slice : Slice)
  | mutate (store : String) (key : Bytes) (additions : List Entry) (deletions : List Bytes)
  | commit
  | rollback

/-- What a call that succeeds answers. -/
inductive TransactionReply where
  | entries (found : List Entry)
  | done

/-- What is staged has no empty part, and is gone when the transaction is over. -/
structure Transaction.Sound (transaction : Transaction) : Prop where
  filled : StoreMutations.Filled transaction.pending
  dropped : transaction.state ≠ .running → transaction.pending = .empty

namespace TransactionCall

def isEnding : TransactionCall → Bool
  | commit => true
  | rollback => true
  | _ => false

def perform {τ : Type} (stores : CachedStores τ) (call : TransactionCall)
    (before : Transaction × τ) : Result TransactionReply × Transaction × τ :=
  match call with
  | getSlice store key slice =>
    let (outcome, after) := before.1.getSlice stores store key slice before.2
    (outcome.map .entries, before.1, after)
  | mutate store key additions deletions =>
    match before.1.mutate store key additions deletions with
    | .ok staged => (.ok .done, staged, before.2)
    | .error failure => (.error failure, before)
  | commit =>
    let ((outcome, ended), after) := before.1.commit stores before.2
    (outcome.map fun _ => .done, ended, after)
  | rollback =>
    match before.1.rollback with
    | .ok ended => (.ok .done, ended, before.2)
    | .error failure => (.error failure, before)

/-! ### One call -/

section Performed

variable {σ : Type} {manager : Manager σ} (quiet : QuietReads manager)

/-- What a call can do. Only a commit may change what shows of the stores. -/
inductive Performed : TransactionCall → Transaction × (CachePool × σ) →
    Result TransactionReply → Transaction × (CachePool × σ) → Prop where
  | refused {call : TransactionCall} {before : Transaction × (CachePool × σ)}
      (isOver : before.1.state ≠ .running) :
      Performed call before (.error (.closed .transaction)) before
  | read {store : String} {key : Bytes} {slice : Slice} {transaction : Transaction}
      {before after : CachePool × σ} {reply : Result TransactionReply}
      (running : transaction.state = .running) (kept : quiet.beside after = quiet.beside before) :
      Performed (.getSlice store key slice) (transaction, before) reply (transaction, after)
  | staged {store : String} {key : Bytes} {additions : List Entry} {deletions : List Bytes}
      {transaction after : Transaction} {world : CachePool × σ}
      (running : transaction.state = .running) (stillRunning : after.state = .running)
      (filled : StoreMutations.Filled transaction.pending → StoreMutations.Filled after.pending) :
      Performed (.mutate store key additions deletions) (transaction, world) (.ok .done)
        (after, world)
  | committed {transaction : Transaction} {before after : CachePool × σ} {outcome : Result Unit}
      (running : transaction.state = .running) :
      Performed .commit (transaction, before) (outcome.map fun _ => .done)
        (transaction.finished outcome, after)
  | rolledBack {transaction : Transaction} {world : CachePool × σ}
      (running : transaction.state = .running) :
      Performed .rollback (transaction, world) (.ok .done)
        ({ transaction with pending := .empty, state := .rolledBack }, world)

theorem perform_of_over {τ : Type} (stores : CachedStores τ) (call : TransactionCall)
    {before : Transaction × τ} (isOver : before.1.state ≠ .running) :
    call.perform stores before = (.error (.closed .transaction), before) := by
  have refuses := Transaction.refusesAll_of_not_isOpen (decide_eq_false isOver)
  cases call with
  | getSlice store key slice => rw [perform, refuses.getSlice]; rfl
  | mutate store key additions deletions => rw [perform, refuses.mutate]
  | commit => rw [perform, refuses.commit]; rfl
  | rollback => rw [perform, refuses.rollback]

/-- Every call comes to one of the cases of `Performed`. -/
theorem performed (stripe : Bytes → Stripe) (call : TransactionCall)
    (before : Transaction × (CachePool × σ)) : ∃ reply after,
      call.perform (.pooled manager stripe) before = (reply, after) ∧
        Performed quiet call before reply after := by
  obtain ⟨transaction, world⟩ := before
  by_cases running : transaction.state = .running
  · have opened := Transaction.ensureOpen_of_running running
    cases call with
    | getSlice store key slice =>
        have kept := quiet.keeps_getSlice stripe transaction store key slice world
        exact ⟨_, _, rfl, .read running kept⟩
    | mutate store key additions deletions =>
        obtain ⟨after, mutated, stillRunning, filled⟩ :=
          Transaction.mutate_filled running store key additions deletions
        refine ⟨_, _, ?_, .staged running stillRunning filled⟩
        rw [perform, mutated]
    | commit =>
        rcases ran : Transaction.flush (.pooled manager stripe) transaction.bufferSize
          transaction.pending.entries world with ⟨outcome, after⟩
        have ended : perform (.pooled manager stripe) .commit (transaction, world) =
            (outcome.map fun _ => .done, transaction.finished outcome, after) := by
          rw [perform, Transaction.commit_of_running running]
          dsimp only
          rw [ran]
        exact ⟨_, _, ended, .committed running⟩
    | rollback =>
        refine ⟨_, _, ?_, .rolledBack running⟩
        rw [perform, Transaction.rollback, opened]
        rfl
  · exact ⟨_, _, perform_of_over _ call running, .refused running⟩

variable {quiet} {call : TransactionCall} {before after : Transaction × (CachePool × σ)}
  {reply : Result TransactionReply}

/-- A call that does not end a running transaction leaves it running and the stores alone. -/
theorem Performed.of_notEnding (did : Performed quiet call before reply after)
    (running : before.1.state = .running) (notEnding : call.isEnding = false) :
    after.1.state = .running ∧ quiet.beside after.2 = quiet.beside before.2 := by
  cases did with
  | refused isOver => exact absurd running isOver
  | read _ kept => exact ⟨running, kept⟩
  | staged _ stillRunning _ => exact ⟨stillRunning, rfl⟩
  | committed => exact nomatch notEnding
  | rolledBack => exact nomatch notEnding

theorem Performed.of_ending (did : Performed quiet call before reply after)
    (ending : call.isEnding = true) : after.1.state ≠ .running := by
  cases did with
  | refused isOver => exact isOver
  | read => exact nomatch ending
  | staged => exact nomatch ending
  | @committed _ _ _ outcome _ => cases outcome <;> exact nofun
  | rolledBack => exact nofun

theorem Performed.of_rollback (did : Performed quiet .rollback before reply after)
    (running : before.1.state = .running) : reply = .ok .done ∧ after.1.state = .rolledBack ∧
      quiet.beside after.2 = quiet.beside before.2 := by
  cases did with
  | refused isOver => exact absurd running isOver
  | rolledBack => exact ⟨rfl, rfl, rfl⟩

theorem Performed.of_commit (did : Performed quiet .commit before reply after)
    (running : before.1.state = .running) :
    reply = .ok .done ∧ after.1.state = .committed ∨
      (∃ failure, reply = .error failure) ∧ after.1.state = .failed := by
  cases did with
  | refused isOver => exact absurd running isOver
  | @committed _ _ _ outcome _ =>
      cases outcome with
      | ok done => exact .inl ⟨rfl, rfl⟩
      | error failure => exact .inr ⟨⟨failure, rfl⟩, rfl⟩

/-- Every call keeps the states of a transaction sound. -/
theorem Performed.sound (did : Performed quiet call before reply after) (sound : before.1.Sound) :
    after.1.Sound := by
  cases did with
  | refused => exact sound
  | read => exact sound
  | staged _ stillRunning filled =>
      exact ⟨filled sound.filled, fun isOver => absurd stillRunning isOver⟩
  | committed => exact ⟨StoreMutations.filled_empty, fun _ => rfl⟩
  | rolledBack => exact ⟨StoreMutations.filled_empty, fun _ => rfl⟩

end Performed

end TransactionCall

/-! ### Runs -/

section Runs

variable {σ : Type} {manager : Manager σ}

/-- A step of others on the same stores and caches. What it makes of what shows of the stores does
not depend on the caches. -/
structure OtherStep (quiet : QuietReads manager) where
  step : CachePool × σ → CachePool × σ
  onShown : quiet.View → quiet.View
  shows : ∀ world, quiet.beside (step world) = onShown (quiet.beside world)

/-- A call of the transaction's user, or a step of others. -/
inductive TransactionEvent (quiet : QuietReads manager) where
  | call (call : TransactionCall)
  | other (other : OtherStep quiet)

variable {quiet : QuietReads manager}

def TransactionEvent.NoneEnds (events : List (TransactionEvent quiet)) : Prop :=
  ∀ call, .call call ∈ events → call.isEnding = false

namespace Transaction

def step (stripe : Bytes → Stripe) (state : Transaction × (CachePool × σ)) :
    TransactionEvent quiet → Transaction × (CachePool × σ)
  | .call call => (call.perform (.pooled manager stripe) state).2
  | .other other => (state.1, other.step state.2)

def run (stripe : Bytes → Stripe) (state : Transaction × (CachePool × σ))
    (events : List (TransactionEvent quiet)) : Transaction × (CachePool × σ) :=
  events.foldl (step stripe) state

/-- What the steps of others alone make of what shows. -/
def othersOn (shown : quiet.View) (events : List (TransactionEvent quiet)) : quiet.View :=
  events.foldl (fun shown event => match event with
    | .call _ => shown
    | .other other => other.onShown shown) shown

variable (stripe : Bytes → Stripe)

/-- The step of a call comes to one of the cases of a call. -/
theorem performed_step (quiet : QuietReads manager) (call : TransactionCall)
    (state : Transaction × (CachePool × σ)) : ∃ reply, call.Performed quiet state reply
      (step stripe state (.call call : TransactionEvent quiet)) := by
  obtain ⟨reply, after, ran, did⟩ := TransactionCall.performed quiet stripe call state
  rw [step, ran]
  exact ⟨reply, did⟩

/-- A transaction that is over stays as it is, and the stores are left to others. -/
theorem run_of_over {state : Transaction × (CachePool × σ)} (isOver : state.1.state ≠ .running)
    (events : List (TransactionEvent quiet)) : (run stripe state events).1 = state.1 ∧
      quiet.beside (run stripe state events).2 = othersOn (quiet.beside state.2) events := by
  induction events generalizing state with
  | nil => exact ⟨rfl, rfl⟩
  | cons event events inductionHypothesis =>
      cases event with
      | call call =>
          have stays : step stripe state (.call call : TransactionEvent quiet) = state := by
            rw [step, call.perform_of_over _ isOver]
          rw [run, List.foldl_cons, stays]
          exact inductionHypothesis isOver
      | other other =>
          have rest := @inductionHypothesis (state.1, other.step state.2) isOver
          rw [other.shows] at rest
          exact rest

/-- Without a call that ends it a transaction goes on running, and the stores are left to others. -/
theorem run_of_noneEnds {state : Transaction × (CachePool × σ)}
    (running : state.1.state = .running) {events : List (TransactionEvent quiet)}
    (noneEnds : TransactionEvent.NoneEnds events) :
    (run stripe state events).1.state = .running ∧
      quiet.beside (run stripe state events).2 = othersOn (quiet.beside state.2) events := by
  induction events generalizing state with
  | nil => exact ⟨running, rfl⟩
  | cons event events inductionHypothesis =>
      have others : TransactionEvent.NoneEnds events := fun call listed =>
        noneEnds call (List.mem_cons_of_mem _ listed)
      cases event with
      | call call =>
          obtain ⟨reply, did⟩ := performed_step stripe quiet call state
          obtain ⟨stillRunning, kept⟩ :=
            did.of_notEnding running (noneEnds call List.mem_cons_self)
          have rest := inductionHypothesis stillRunning others
          rw [kept] at rest
          exact rest
      | other other =>
          have rest := @inductionHypothesis (state.1, other.step state.2) running others
          rw [other.shows] at rest
          exact rest

/-- Every run of events keeps the states of a transaction sound. -/
theorem Sound.run {state : Transaction × (CachePool × σ)} (sound : state.1.Sound)
    (events : List (TransactionEvent quiet)) : (run stripe state events).1.Sound := by
  induction events generalizing state with
  | nil => exact sound
  | cons event events inductionHypothesis =>
      cases event with
      | call call =>
          obtain ⟨reply, did⟩ := performed_step stripe quiet call state
          exact inductionHypothesis (did.sound sound)
      | other other => exact @inductionHypothesis (state.1, other.step state.2) sound

theorem run_call (state : Transaction × (CachePool × σ)) (front : List (TransactionEvent quiet))
    (call : TransactionCall) (back : List (TransactionEvent quiet)) :
    run stripe state (front ++ .call call :: back) =
      run stripe (call.perform (.pooled manager stripe) (run stripe state front)).2 back :=
  List.foldl_append

/-- A transaction that runs on has not been asked to end. -/
theorem noneEnds_of_running {state : Transaction × (CachePool × σ)}
    {events : List (TransactionEvent quiet)}
    (running : (run stripe state events).1.state = .running) :
    TransactionEvent.NoneEnds events := by
  intro call listed
  obtain ⟨front, back, rfl⟩ := List.append_of_mem listed
  obtain ⟨reply, after, ran, did⟩ :=
    TransactionCall.performed quiet stripe call (run stripe state front)
  rw [run_call, ran] at running
  refine Bool.eq_false_iff.2 fun ending => ?_
  have isOver := did.of_ending ending
  rw [(run_of_over stripe isOver back).1] at running
  exact isOver running

/-! ### Main statement -/

/-- What a run of a transaction comes to: it goes on running until a call ends it, the first such
call decides how it ends, and from there on every call is refused. -/
structure Lifecycle (stripe : Bytes → Stripe) (initial : Transaction × (CachePool × σ))
    (events : List (TransactionEvent quiet)) : Prop where
  running : TransactionEvent.NoneEnds events →
    (run stripe initial events).1.state = .running ∧
      quiet.beside (run stripe initial events).2 = othersOn (quiet.beside initial.2) events
  rolledBack : ∀ front back, events = front ++ .call .rollback :: back →
    TransactionEvent.NoneEnds front →
    (TransactionCall.rollback.perform (.pooled manager stripe) (run stripe initial front)).1 =
        .ok .done ∧
      (run stripe initial events).1.state = .rolledBack ∧
      quiet.beside (run stripe initial events).2 = othersOn (quiet.beside initial.2) events
  committed : ∀ front back, events = front ++ .call .commit :: back →
    TransactionEvent.NoneEnds front →
    ∃ reply after, TransactionCall.commit.perform (.pooled manager stripe)
        (run stripe initial front) = (reply, after) ∧
      (reply = .ok .done ∧ (run stripe initial events).1.state = .committed ∨
        (∃ failure, reply = .error failure) ∧ (run stripe initial events).1.state = .failed) ∧
      quiet.beside (run stripe initial events).2 = othersOn (quiet.beside after.2) back
  closed : ∀ front call back, events = front ++ .call call :: back →
    ¬ TransactionEvent.NoneEnds front →
    call.perform (.pooled manager stripe) (run stripe initial front) =
      (.error (.closed .transaction), run stripe initial front)
  modified : ∀ world : CachePool × Nat × σ,
    ((run stripe initial events).1.commit (.pooled manager.counting stripe) world).2.2.1 =
        world.2.1 ↔
      (run stripe initial events).1.hasModifications = false ∨
        (run stripe initial events).1.Unreached (.pooled manager.counting stripe) world

/-- Whatever calls of its user and steps of others follow the start of a transaction, the stores
are left to the others until it is committed and for good when it is rolled back; it ends once, in
the way that the first call to end it tells, and then refuses every call and changes nothing; and
it has no modifications just when a commit would issue no write, short of a first store that cannot
be acquired. -/
theorem lifecycle (quiet : QuietReads manager) (stripe : Bytes → Stripe) (bufferSize : Nat)
    (world : CachePool × σ) (events : List (TransactionEvent quiet)) :
    Lifecycle stripe (start bufferSize, world) events := by
  have sound : (run stripe (start bufferSize, world) events).1.Sound :=
    Sound.run stripe ⟨StoreMutations.filled_empty, fun isOver => absurd rfl isOver⟩ events
  have opened : ∀ front : List (TransactionEvent quiet), TransactionEvent.NoneEnds front →
      (run stripe (start bufferSize, world) front).1.state = .running ∧
        quiet.beside (run stripe (start bufferSize, world) front).2 =
          othersOn (quiet.beside world) front :=
    fun front => run_of_noneEnds stripe rfl
  refine ⟨opened events, ?_, ?_, ?_, ?_⟩
  · rintro front back rfl noneEnds
    obtain ⟨running, kept⟩ := opened front noneEnds
    obtain ⟨reply, after, ran, did⟩ := TransactionCall.performed quiet stripe .rollback
      (run stripe (start bufferSize, world) front)
    obtain ⟨answered, rolledBack, unchanged⟩ := did.of_rollback running
    obtain ⟨stays, left⟩ := run_of_over stripe (did.of_ending rfl) back
    have shown : othersOn (quiet.beside world) (front ++ .call .rollback :: back) =
        othersOn (othersOn (quiet.beside world) front) back := List.foldl_append
    rw [run_call, shown, ran, stays, left, unchanged, kept]
    exact ⟨answered, rolledBack, rfl⟩
  · rintro front back rfl noneEnds
    obtain ⟨running, -⟩ := opened front noneEnds
    obtain ⟨reply, after, ran, did⟩ := TransactionCall.performed quiet stripe .commit
      (run stripe (start bufferSize, world) front)
    obtain ⟨stays, left⟩ := run_of_over stripe (did.of_ending rfl) back
    rw [run_call, ran, stays]
    exact ⟨reply, after, rfl, did.of_commit running, left⟩
  · rintro front call back rfl ends
    exact call.perform_of_over _ fun running => ends (noneEnds_of_running stripe running)
  · intro counted
    by_cases running : (run stripe (start bufferSize, world) events).1.state = .running
    · exact issues_nothing_iff manager stripe running sound.filled counted
    -- what is over has nothing staged, and refuses to commit
    · rw [(refusesAll_of_not_isOpen (decide_eq_false running)).commit]
      have none := (hasModifications_eq_false sound.filled).2
        (congrArg OrderedMap.entries (sound.dropped running))
      exact ⟨fun _ => .inl none, fun _ => rfl⟩

end Transaction

end Runs

namespace Transaction

/-- Someone else's write to a backend in memory. -/
def otherRow : OtherStep Memory.quiet where
  step world := (world.1, (Memory.mutate ⟨"s", 0⟩ [2] [⟨[7], [8]⟩] [] world.2).2)
  onShown memory := (Memory.mutate ⟨"s", 0⟩ [2] [⟨[7], [8]⟩] [] memory).2
  shows _ := rfl

/-- A transaction that is rolled back leaves the stores as someone else has made them, and does not
commit behind that. One whose commit is interrupted has failed. -/
theorem lifecycle_twoRuns :
    (let front : List (TransactionEvent Memory.quiet) :=
        [.call (.mutate "s" [1] [⟨[7], [9]⟩] [[8]]), .other otherRow,
          .call (.getSlice "s" [1] Slice.fullRow)]
      let ended := run Stripe.ofKey (start 4, (.empty 4, .empty))
        (front ++ [.call .rollback, .call .commit])
      ended.1.state = .rolledBack ∧
        ended.2.2 = (Memory.mutate ⟨"s", 0⟩ [2] [⟨[7], [8]⟩] [] .empty).2) ∧
    (run Stripe.ofKey (start 4, (.empty 4, ([none, some "disk full"], .empty)))
      ([.call (.mutate "s" [1] [⟨[7], [9]⟩] []), .call .commit, .call .rollback] :
        List (TransactionEvent Memory.quiet.interrupted))).1.state = .failed := by
  constructor
  · intro front ended
    have noneEnds : TransactionEvent.NoneEnds front := by
      intro call listed
      simp only [front, List.mem_cons, TransactionEvent.call.injEq, reduceCtorEq, List.not_mem_nil,
        or_false, false_or] at listed
      rcases listed with rfl | rfl <;> rfl
    have run := lifecycle Memory.quiet Stripe.ofKey 4 (.empty 4, .empty)
      (front ++ [.call .rollback, .call .commit])
    exact (run.rolledBack front [.call .commit] rfl noneEnds).2
  · have run := lifecycle Memory.quiet.interrupted Stripe.ofKey 4
      (.empty 4, ([none, some "disk full"], .empty))
      [.call (.mutate "s" [1] [⟨[7], [9]⟩] []), .call .commit, .call .rollback]
    have noneEnds : TransactionEvent.NoneEnds
        ([.call (.mutate "s" [1] [⟨[7], [9]⟩] [])] :
          List (TransactionEvent Memory.quiet.interrupted)) := by
      intro call listed
      obtain rfl := TransactionEvent.call.inj (List.mem_singleton.1 listed)
      rfl
    obtain ⟨reply, after, ran, ⟨rfl, -⟩ | ⟨-, failed⟩, -⟩ :=
      run.committed [.call (.mutate "s" [1] [⟨[7], [9]⟩] [])] [.call .rollback] rfl noneEnds
    · have interrupted : ((TransactionCall.commit.perform
          (.pooled Memory.manager.interrupted Stripe.ofKey)
          (Transaction.run Stripe.ofKey (start 4, (.empty 4, ([none, some "disk full"], .empty)))
            ([.call (.mutate "s" [1] [⟨[7], [9]⟩] [])] :
              List (TransactionEvent Memory.quiet.interrupted)))).1.toOption).isSome = false := by
        with_unfolding_all rfl
      rw [ran] at interrupted
      exact nomatch interrupted
    · exact failed

end Transaction

end GraphStore
