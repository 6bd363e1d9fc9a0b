import GraphStore.Proofs.Manager.Refinement

/-!
Contract: emptying and compacting the log while steps on its files fail.

Owns the runs in which such operations fail (`Step`), the condition under which a failure is
harmless (`Spoils`: the file at the log's place was touched before the step that failed), and
the proof that the condition is exact (`upkeep_failed_exact`): behind a failure that spoils
nothing the log keeps describing the live tables, behind any other one the next acknowledged
row is not recovered.
-/

namespace GraphStore.Embedded

open Log

/-! ### Operations on the whole log -/

/-- The backend with the given outcomes of file steps ahead. -/
def withScript (embedded : Embedded) (script : List StepOutcome) : Embedded :=
  { embedded with
    writer := { embedded.writer with file := embedded.writer.file.withScript script }
    replacement := embedded.replacement.map fun file => file.withScript script }

/-- The operations that rewrite the log as a whole. -/
inductive Upkeep where
  | clear
  | compact
deriving DecidableEq, Repr

/-- Runs an operation on the whole log. -/
def Upkeep.perform : Upkeep → Action Embedded Unit
  | .clear => clearStorage
  | .compact => do
    let _ ← Embedded.compact

/-- Runs an operation on the whole log whose file steps come out as planned; behind it no more
faults are planned. -/
def upkeep (embedded : Embedded) (operation : Upkeep) (faults : List StepOutcome) :
    Result Unit × Embedded :=
  let (outcome, after) := operation.perform (embedded.withScript faults)
  (outcome, after.withScript [])

theorem upkeep_of_performed {operation : Upkeep} {faults : List StepOutcome}
    {embedded after : Embedded} {outcome : Result Unit}
    (performed : operation.perform (embedded.withScript faults) = (outcome, after)) :
    embedded.upkeep operation faults = (outcome, after.withScript []) := by
  rw [upkeep, performed]

/-- The file at the log's place has been touched: it has another content, or another file has
taken its place. -/
def Spoils (before after : Embedded) : Prop :=
  after.replacement ≠ none ∨ after.logFile.bytes ≠ before.logFile.bytes

/-! ### What a failure leaves -/

theorem spoils_of_emptied {embedded after : Embedded} (placed : after.replacement = none)
    (bytes : after.writer.file.bytes = []) (filled : embedded.logFile.bytes ≠ []) :
    Spoils embedded after := by
  refine Or.inr ?_
  rw [logFile, placed]
  show after.writer.file.bytes ≠ _
  rw [bytes]
  exact filled.symm

theorem spoils_of_detached {embedded after : Embedded} {file : LogFile}
    (replaced : after.replacement = some file) : Spoils embedded after := by
  refine Or.inl ?_
  rw [replaced]
  exact nofun

/-- The next append will be acknowledged. -/
structure Writable (embedded : Embedded) : Prop where
  sound : embedded.writer.poisoned = false
  faultless : embedded.writer.file.Faultless
  isOpen : embedded.closed = false

/-- What an operation on the whole log can come to, from a running backend. -/
inductive UpkeepResult (embedded : Embedded) : Result Unit → Embedded → Prop where
  | done {after : Embedded} {recorded : List RowChange} (running : after.Running recorded) :
      UpkeepResult embedded (.ok ()) after
  | harmless {failure : StoreError} {after : Embedded} {recorded : List RowChange}
      (running : after.Running recorded) (same : after.logFile.bytes = embedded.logFile.bytes) :
      UpkeepResult embedded (.error failure) after
  | emptied {failure : StoreError} {after : Embedded} (writable : after.Writable)
      (placed : after.replacement = none) (bytes : after.writer.file.bytes = [])
      (filled : embedded.logFile.bytes ≠ [])
      (behind : headerLength ≤ after.writer.file.position ∨
        after.writer.file.position = 0 ∧ after.writer.nextSequence = embedded.writer.nextSequence) :
      UpkeepResult embedded (.error failure) after
  | detached {failure : StoreError} {after : Embedded} {file : LogFile} (writable : after.Writable)
      (replaced : after.replacement = some file) :
      UpkeepResult embedded (.error failure) after

theorem Coherent.withScript {embedded : Embedded} {changes : List RowChange}
    (coherent : embedded.Coherent changes) (script : List StepOutcome) :
    (embedded.withScript script).Coherent changes :=
  coherent.of_sameLog rfl rfl rfl rfl coherent.sound rfl
    (congrArg (Option.map fun file => LogFile.withScript file script) coherent.placed)

theorem UpkeepResult.harmless_of_coherent {embedded after : Embedded} {failure : StoreError}
    {changes : List RowChange} (running : embedded.Running changes)
    (coherent : after.Coherent changes) (faultless : after.writer.file.Faultless)
    (isOpen : after.closed = false) : UpkeepResult embedded (.error failure) after :=
  .harmless ⟨coherent, faultless, isOpen⟩ (coherent.bytes.trans running.coherent.bytes.symm)

theorem Running.clear_result {embedded : Embedded} {changes : List RowChange}
    (running : embedded.Running changes) (faults : List StepOutcome) :
    ∃ outcome after, embedded.upkeep .clear faults = (outcome, after) ∧
      UpkeepResult embedded outcome after := by
  have armed := running.coherent.withScript faults
  have result := clearStorage_result (embedded.withScript faults)
  rcases attempted : clearStorage (embedded.withScript faults) with ⟨outcome, after⟩
  rw [attempted] at result
  refine ⟨outcome, after.withScript [], upkeep_of_performed attempted, ?_⟩
  cases result with
  | cleared device bytes position =>
      exact .done ⟨(Coherent.cleared armed.placed bytes position).withScript [],
        running.faultless.disarmed device, running.isOpen⟩
  | uncut faulty =>
      refine .harmless_of_coherent running ?_ ⟨rfl, running.faultless.sizeLimit,
        running.faultless.shrinkable⟩ running.isOpen
      exact running.coherent.of_sameLog rfl rfl rfl rfl running.coherent.sound rfl
        (congrArg (Option.map fun file => LogFile.withScript file []) armed.placed)
  | @cut file device bytes position faulty =>
      have placed := congrArg (Option.map fun file => LogFile.withScript file []) armed.placed
      have still := running.faultless.disarmed device
      have before : embedded.logFile.bytes = embedded.writer.file.bytes :=
        congrArg LogFile.bytes running.coherent.logFile
      have stands : embedded.writer.file.position = embedded.writer.file.bytes.length :=
        running.coherent.holds.position.trans running.coherent.holds.length
      by_cases empty : embedded.writer.file.bytes = []
      · have start : embedded.writer.file.position = 0 :=
          stands.trans (congrArg List.length empty)
        refine .harmless_of_coherent running ?_ still running.isOpen
        refine running.coherent.of_sameLog (bytes.trans empty.symm) ?_ rfl rfl
          running.coherent.sound rfl placed
        rcases position with unmoved | moved
        · exact unmoved
        · exact moved.trans start.symm
      · refine .emptied ⟨running.coherent.sound, still, running.isOpen⟩ placed bytes
          (before ▸ empty) ?_
        have filled : changes ≠ [] := by
          intro none
          rw [running.coherent.holds.bytes, none] at empty
          exact empty rfl
        have long := headerLength_le_length_frames filled 0
        rw [← running.coherent.holds.bytes, ← stands] at long
        rcases position with unmoved | moved
        · exact Or.inl (Nat.le_trans long (Nat.le_of_eq unmoved.symm))
        · exact Or.inr ⟨moved, rfl⟩

theorem Running.compact_result {embedded : Embedded} {changes : List RowChange}
    (running : embedded.Running changes) (faults : List StepOutcome) :
    ∃ outcome after, embedded.upkeep .compact faults = (outcome, after) ∧
      UpkeepResult embedded outcome after := by
  have armed := running.coherent.withScript faults
  have result := Embedded.compact_result (embedded.withScript faults)
  rcases attempted : Embedded.compact (embedded.withScript faults) with ⟨outcome, after⟩
  rw [attempted] at result
  cases result with
  | replaced device loggable bytes position =>
      have performed : Upkeep.perform .compact (embedded.withScript faults) = (.ok (), _) :=
        Action.bind_of_ok attempted
      exact ⟨_, _, upkeep_of_performed performed,
        .done ⟨(Coherent.replaced armed.tidy loggable bytes position).withScript [],
          running.faultless.sibling.disarmed device, running.isOpen⟩⟩
  | @kept failure used script =>
      have performed : Upkeep.perform .compact (embedded.withScript faults) =
          (.error failure, (embedded.withScript faults).keepScript used) :=
        Action.bind_of_error attempted
      refine ⟨_, _, upkeep_of_performed performed,
        .harmless_of_coherent running ?_ ?_ running.isOpen⟩
      · exact (armed.keepScript used).withScript []
      · exact ⟨rfl, running.faultless.sizeLimit, running.faultless.shrinkable⟩
  | @detached used device loggable bytes faulty =>
      have performed : Upkeep.perform .compact (embedded.withScript faults) =
          (.error LogFile.failure,
            { (embedded.withScript faults).keepScript used with replacement := some used }) :=
        Action.bind_of_error attempted
      refine ⟨_, _, upkeep_of_performed performed, .detached ⟨running.coherent.sound, ?_,
        running.isOpen⟩ rfl⟩
      exact ⟨rfl, running.faultless.sizeLimit, running.faultless.shrinkable⟩

theorem Running.upkeep_result {embedded : Embedded} {changes : List RowChange}
    (running : embedded.Running changes) (operation : Upkeep) (faults : List StepOutcome) :
    ∃ outcome after, embedded.upkeep operation faults = (outcome, after) ∧
      UpkeepResult embedded outcome after := by
  cases operation with
  | clear => exact running.clear_result faults
  | compact => exact running.compact_result faults

/-! ### Lost rows -/

def cellChange (value : Bytes) : RowChange := ⟨"", [], [⟨[], value⟩], []⟩

def writeCell (value : Bytes) : StoreCall := .mutate "" [] [⟨[], value⟩] []

def cell? (tables : Tables) : Option Bytes := Table.cell? (Tables.table tables "") [] []

/-- A short write is acknowledged and goes to the place where the writer stands. -/
theorem Writable.perform_writeCell {embedded : Embedded} (writable : embedded.Writable)
    {value : Bytes} (loggable : (cellChange value).Loggable) :
    ∃ final, (writeCell value).perform manager embedded = (.ok .done, final) ∧
      final.replacement = embedded.replacement ∧
      final.writer.file = embedded.writer.file.written
        (frame embedded.writer.nextSequence (cellChange value).encode) := by
  have written := writeRow_of_loggable writable.sound writable.faultless loggable
  have changed := (guarded.mutate_of_open writable.isOpen (embedded.stores.refer "") []
    [⟨[], value⟩] []).trans written
  exact ⟨_, (Action.bind_of_ok (guarded.openStore_of_open writable.isOpen "")).trans
    (Action.bind_of_ok changed), rfl, rfl⟩

/-- A log whose first record is not read gives no tables. -/
theorem replay_of_none {log : Bytes} (unread : readRecord? 0 log = none) :
    (replay log).1 = .empty := by
  rw [replay, readRecords_of_none unread]
  rfl

/-- What is written into an emptied file behind its start, or with a number that is not that of
a first record, is not read. -/
theorem readRecord?_of_stranded {file : LogFile} (bytes : file.bytes = []) {sequence : UInt64}
    (behind : headerLength ≤ file.position ∨ file.position = 0 ∧ sequence ≠ 0) (payload : Bytes) :
    readRecord? 0 (file.written (frame sequence payload)).bytes = none := by
  rw [LogFile.bytes_written_empty bytes (frame_ne_nil sequence payload)]
  rcases behind with gap | ⟨start, other⟩
  · exact readRecord?_zeros gap _
  · have unread := readRecord?_frame_of_ne other payload []
    rw [List.append_nil] at unread
    rw [start]
    exact unread

/-- Behind at least one record, and fewer than can be counted, the next number is not zero. -/
theorem Running.nextSequence_ne_zero {embedded : Embedded} {changes : List RowChange}
    (running : embedded.Running changes) (filled : embedded.logFile.bytes ≠ [])
    (short : embedded.writer.length < Word.count 64) : embedded.writer.nextSequence ≠ 0 := by
  rw [running.coherent.bytes] at filled
  have holds := running.coherent.holds
  have counted : changes.length ≤ embedded.writer.length := by
    rw [holds.length, holds.bytes]
    exact length_le_length_frames changes 0
  have some : changes.length ≠ 0 := by
    intro none
    rw [List.length_eq_zero_iff.1 none] at filled
    exact filled rfl
  intro zero
  have number := congrArg UInt64.toNat (holds.nextSequence.symm.trans zero)
  rw [UInt64.toNat_ofNat_of_lt' (Nat.lt_of_le_of_lt counted short)] at number
  exact some number

/-- Behind an operation that has emptied the log and failed, what is acknowledged is lost. -/
theorem lost_of_emptied {after : Embedded} (writable : after.Writable)
    (placed : after.replacement = none) (bytes : after.writer.file.bytes = [])
    (behind : headerLength ≤ after.writer.file.position ∨
      after.writer.file.position = 0 ∧ after.writer.nextSequence ≠ 0) :
    ∃ value final, (writeCell value).perform manager after = (.ok .done, final) ∧
      cell? final.recovered ≠ some value := by
  have short : (cellChange []).Loggable := by decide +kernel
  obtain ⟨final, written, place, file⟩ := writable.perform_writeCell short
  have nothing : final.recovered = .empty := by
    rw [recovered, logFile, place, placed]
    show (replay final.writer.file.bytes).1 = .empty
    rw [file, replay_of_none (readRecord?_of_stranded bytes behind _)]
  refine ⟨[], final, written, ?_⟩
  rw [nothing]
  exact (Option.some_ne_none []).symm

/-- Behind an operation that has replaced the log and failed, what is acknowledged is lost. -/
theorem lost_of_detached {after : Embedded} (writable : after.Writable) {file : LogFile}
    (replaced : after.replacement = some file) :
    ∃ value final, (writeCell value).perform manager after = (.ok .done, final) ∧
      cell? final.recovered ≠ some value := by
  have shortEmpty : (cellChange []).Loggable := by decide +kernel
  have shortOther : (cellChange [0]).Loggable := by decide +kernel
  have unchanged {final : Embedded} (place : final.replacement = after.replacement) :
      final.recovered = (replay file.bytes).1 := by
    rw [recovered, logFile, place, replaced]
    rfl
  -- of two values at least one is not what the new log already holds
  by_cases held : cell? (replay file.bytes).1 = some []
  · obtain ⟨final, written, place, _⟩ := writable.perform_writeCell shortOther
    refine ⟨[0], final, written, ?_⟩
    rw [unchanged place, held]
    decide
  · obtain ⟨final, written, place, _⟩ := writable.perform_writeCell shortEmpty
    refine ⟨[], final, written, ?_⟩
    rw [unchanged place]
    exact held

/-! ### Runs -/

/-- A step of a run: an event without faults, or an operation on the whole log whose file steps
come out as planned. -/
inductive Step where
  | event (event : Event)
  | upkeep (operation : Upkeep) (faults : List StepOutcome)

def next (embedded : Embedded) : Step → Embedded
  | .event event => (embedded.observe event).2
  | .upkeep operation faults => (embedded.upkeep operation faults).2

/-- The step is no failed operation that has touched the log's file. -/
def Harmless (embedded : Embedded) : Step → Prop
  | .event _ => True
  | .upkeep operation faults =>
    (embedded.upkeep operation faults).1 = .ok () ∨
      ¬ Spoils embedded (embedded.upkeep operation faults).2

def run : List Step → Embedded → Embedded
  | [], embedded => embedded
  | step :: steps, embedded => run steps (embedded.next step)

/-- Every step of the run is harmless. -/
def HarmlessRun : List Step → Embedded → Prop
  | [], _ => True
  | step :: steps, embedded => embedded.Harmless step ∧ HarmlessRun steps (embedded.next step)

/-- A harmless step leaves the backend running. -/
theorem Running.next {embedded : Embedded} {changes : List RowChange}
    (running : embedded.Running changes) {step : Step} (harmless : embedded.Harmless step) :
    ∃ recorded, (embedded.next step).Running recorded := by
  cases step with
  | event event =>
      cases event with
      | call call =>
          obtain ⟨outcome, after, performed, result⟩ := running.perform_result call
          have behind : embedded.next (.event (.call call)) = after := congrArg Prod.snd performed
          rw [behind]
          cases result with
          | answered running left => exact ⟨_, running⟩
          | refused running tooLong => exact ⟨_, running⟩
      | compact =>
          obtain ⟨outcome, after, recorded, compacted, running, _⟩ := running.compact
          have behind : embedded.next (.event .compact) = after := congrArg Prod.snd compacted
          exact ⟨recorded, behind ▸ running⟩
      | reopen syncWrites =>
          obtain ⟨stats, after, reopened, _, running, _⟩ := running.reopen syncWrites
          have behind : embedded.next (.event (.reopen syncWrites)) = after :=
            congrArg Prod.snd reopened
          exact ⟨changes, behind ▸ running⟩
  | upkeep operation faults =>
      obtain ⟨outcome, after, attempted, result⟩ := running.upkeep_result operation faults
      rw [Harmless, attempted] at harmless
      have behind : embedded.next (.upkeep operation faults) = after := congrArg Prod.snd attempted
      rw [behind]
      cases result with
      | done running => exact ⟨_, running⟩
      | harmless running same => exact ⟨_, running⟩
      | emptied writable placed bytes filled stands =>
          have spoils := spoils_of_emptied placed bytes filled
          exact absurd spoils (harmless.resolve_left nofun)
      | detached writable replaced =>
          exact absurd (spoils_of_detached replaced) (harmless.resolve_left nofun)

/-- A harmless run leaves the backend running. -/
theorem Running.run {embedded : Embedded} {changes : List RowChange}
    (running : embedded.Running changes) {steps : List Step}
    (harmless : HarmlessRun steps embedded) :
    ∃ recorded, (Embedded.run steps embedded).Running recorded := by
  induction steps generalizing embedded changes with
  | nil => exact ⟨changes, running⟩
  | cons step steps inductionHypothesis =>
      obtain ⟨recorded, still⟩ := running.next harmless.1
      exact inductionHypothesis still harmless.2

/-- An acknowledged call is recovered from the log. -/
theorem Running.recovered_of_acknowledged {embedded final : Embedded} {changes : List RowChange}
    (running : embedded.Running changes) {call : StoreCall} {reply : Reply}
    (acknowledged : call.perform manager embedded = (.ok reply, final)) :
    Tables.Agree final.recovered (call.leave embedded.stores.current) := by
  obtain ⟨outcome, after, performed, result⟩ := running.perform_result call
  rw [acknowledged] at performed
  obtain ⟨rfl, rfl⟩ := Prod.mk.inj performed
  cases result with
  | answered running left =>
      rw [← left]
      exact running.coherent.recovered_agree

/-- Exactly a failure that leaves the log's file alone costs nothing. Behind it, and behind
whatever harmless steps follow, replay gives the live tables, each acknowledged call included.
Where the failed operation has touched the file, the next acknowledged row may be lost. -/
theorem upkeep_failed_exact (syncWrites : Bool) {opened : Embedded}
    (start : ((openLog syncWrites).runOn (LogFile.ofBytes [])).1 = .ok opened)
    {earlier : List Step} (harmless : HarmlessRun earlier opened)
    (short : (run earlier opened).writer.length < Word.count 64)
    {operation : Upkeep} {faults : List StepOutcome} {failure : StoreError} {after : Embedded}
    (failed : (run earlier opened).upkeep operation faults = (.error failure, after)) :
    (¬ Spoils (run earlier opened) after → ∀ later, HarmlessRun later after →
      Tables.Agree (run later after).recovered (run later after).stores.current ∧
      ∀ call reply final, StoreCall.perform manager call (run later after) = (.ok reply, final) →
        Tables.Agree final.recovered (call.leave (run later after).stores.current)) ∧
    (Spoils (run earlier opened) after →
      ∃ value final, (writeCell value).perform manager after = (.ok .done, final) ∧
        cell? final.recovered ≠ some value) := by
  obtain ⟨embedded, opening, fresh⟩ := openLog_empty syncWrites
  have same : embedded = opened := Except.ok.inj (opening.symm.trans start)
  obtain ⟨recorded, running⟩ := (same ▸ fresh).run harmless
  obtain ⟨outcome, left, attempted, result⟩ := running.upkeep_result operation faults
  rw [failed] at attempted
  obtain ⟨rfl, rfl⟩ := Prod.mk.inj attempted
  cases result with
  | harmless still same =>
      refine ⟨fun _ later harmlessLater => ?_, fun spoils => ?_⟩
      · obtain ⟨recordedLater, runningLater⟩ := still.run harmlessLater
        exact ⟨runningLater.coherent.recovered_agree,
          fun call reply final acknowledged => runningLater.recovered_of_acknowledged acknowledged⟩
      · rcases spoils with replaced | changed
        · exact absurd still.coherent.placed replaced
        · exact absurd same changed
  | emptied writable placed bytes filled behind =>
      refine ⟨fun unspoiled => absurd (spoils_of_emptied placed bytes filled) unspoiled,
        fun _ => lost_of_emptied writable placed bytes ?_⟩
      refine behind.imp_right fun ⟨start, same⟩ => ⟨start, ?_⟩
      rw [same]
      exact running.nextSequence_ne_zero filled short
  | detached writable replaced =>
      exact ⟨fun unspoiled => absurd (spoils_of_detached replaced) unspoiled,
        fun _ => lost_of_detached writable replaced⟩

def fresh : Embedded :=
  ⟨.ofTables .empty, LogWriter.new (LogFile.ofBytes []) 0 0 true, false, ⟨0, 0, 0⟩, none⟩

/-- The log of one row, whose emptying is attempted under the given faults. -/
def clearOneRow (faults : List StepOutcome) : Result Unit × Embedded :=
  (run [.event (.call (writeCell [1]))] fresh).upkeep .clear faults

theorem error_of_not_isOk {σ : Type} {outcome : Result Unit × σ}
    (notOk : outcome.1.isOk = false) : ∃ failure, outcome = (.error failure, outcome.2) := by
  rcases outcome with ⟨result, after⟩
  cases result with
  | ok answer => exact absurd notOk nofun
  | error failure => exact ⟨failure, rfl⟩

theorem upkeep_failed_exact_clearOneRow :
    (∀ later, HarmlessRun later (clearOneRow [.fails 0]).2 →
      Tables.Agree (run later (clearOneRow [.fails 0]).2).recovered
        (run later (clearOneRow [.fails 0]).2).stores.current) ∧
    ∃ value final, (writeCell value).perform manager (clearOneRow [.succeeds, .fails 0]).2 =
        (.ok .done, final) ∧
      cell? final.recovered ≠ some value := by
  have start : ((openLog true).runOn (LogFile.ofBytes [])).1 = .ok fresh := by
    have nothing : replay [] = (.empty, ⟨0, 0, 0⟩) := by
      rw [replay, readRecords_of_none (readRecord?_nil 0)]
      rfl
    rw [Action.runOn, openLog, Action.get_bind, LogFile.ofBytes, nothing]
    rfl
  have harmless : HarmlessRun [.event (.call (writeCell [1]))] fresh := ⟨trivial, trivial⟩
  have short : (run [.event (.call (writeCell [1]))] fresh).writer.length < Word.count 64 := by
    decide +kernel
  constructor
  · have notOk : (clearOneRow [.fails 0]).1.isOk = false := by decide +kernel
    obtain ⟨failure, failed⟩ := error_of_not_isOk notOk
    have unspoiled : ¬ Spoils (run [.event (.call (writeCell [1]))] fresh)
        (clearOneRow [.fails 0]).2 := by
      unfold Spoils
      decide +kernel
    exact fun later harmlessLater =>
      ((upkeep_failed_exact true start harmless short failed).1 unspoiled later harmlessLater).1
  · have notOk : (clearOneRow [.succeeds, .fails 0]).1.isOk = false := by decide +kernel
    obtain ⟨failure, failed⟩ := error_of_not_isOk notOk
    have spoils : Spoils (run [.event (.call (writeCell [1]))] fresh)
        (clearOneRow [.succeeds, .fails 0]).2 := by
      unfold Spoils
      decide +kernel
    exact (upkeep_failed_exact true start harmless short failed).2 spoils

/-- The log of one row is cut, the position cannot be moved, and the emptying fails. Replay finds
nothing of the row that is still live, nor of the row that is acknowledged next. -/
theorem clearOneRow_loses_rows :
    (clearOneRow [.succeeds, .fails 0]).1.isOk = false ∧
    ¬ Tables.Agree (clearOneRow [.succeeds, .fails 0]).2.recovered
      (clearOneRow [.succeeds, .fails 0]).2.stores.current ∧
    ((writeCell [2]).perform manager (clearOneRow [.succeeds, .fails 0]).2).1.isOk = true ∧
    cell? ((writeCell [2]).perform manager (clearOneRow [.succeeds, .fails 0]).2).2.recovered =
      none := by
  have live : cell? (clearOneRow [.succeeds, .fails 0]).2.stores.current = some [1] := by
    decide +kernel
  have lost : cell? (clearOneRow [.succeeds, .fails 0]).2.recovered = none := by decide +kernel
  refine ⟨by decide +kernel, fun agree => ?_, by decide +kernel, by decide +kernel⟩
  have same := congrArg (fun table => Table.cell? table [] []) (agree "")
  exact absurd (lost.symm.trans (same.trans live)) nofun

end GraphStore.Embedded
