import GraphStore.Proofs.Cache.Steps

/-!
Contract: reads and writes of one store through its cache, in any order of their steps.

Owns the steps that are atomic (`CacheWorld.Step`): looking up, reading the store, filling,
evicting, writing a row, invalidating a row, clearing. Any number of reads and writers take them in
any order. A writer is one call through the cache or a whole commit; it may write its rows in any
way, fail half way, and then invalidates each of them before it returns.

The invariant (`CacheWorld.Sound`) speaks of cached slices and of fills under way alike: both show
a state of the store that no invalidated write of their row is younger than, fills as long as the
epoch they have seen stands.
-/

namespace GraphStore

/-- A write of a row, with the number of the state of the store that it has led to. -/
structure RowWrite where
  key : Bytes
  version : Nat
deriving DecidableEq, Repr

/-- Where a read stands. A read past a cache that is turned off sees no epoch. -/
inductive ReadPhase where
  | asking
  | missed (seen : Option Nat)
  | loaded (seen : Option Nat) (entries : List Entry)
  | answered (entries : List Entry)
  | failed
deriving DecidableEq, Repr

/-- A read of a slice, with the writes that had returned when it began. -/
structure CacheReader where
  key : Bytes
  slice : Slice
  before : List RowWrite
  phase : ReadPhase
deriving DecidableEq, Repr

/-- Where a writer stands: it writes, then drops its rows from the cache, then returns. -/
inductive WritePhase where
  | writing
  | dropping (keys : List Bytes)
  | returned
deriving DecidableEq, Repr

/-- A writer of some rows, with what it has written so far. -/
structure CacheWriter where
  keys : List Bytes
  writes : List RowWrite
  phase : WritePhase
deriving DecidableEq, Repr

/-- A store behind its cache, with the reads and writers at work. Earlier states of the store, the
writes behind which their row has been invalidated, and the writes that have returned are for
reasoning only: no step depends on them. -/
structure CacheWorld where
  cache : Cache
  past : List Table
  table : Table
  readers : List CacheReader
  writers : List CacheWriter
  settled : List RowWrite
  returned : List RowWrite

namespace CacheWorld

/-- A store with a new cache in front of it. -/
def start (table : Table) : CacheWorld := ⟨.empty, [], table, [], [], [], []⟩

/-- The number of the present state of the store. -/
def now (world : CacheWorld) : Nat := world.past.length

/-- The state of the store of the given number. -/
def tableAt? (world : CacheWorld) (version : Nat) : Option Table :=
  (world.past ++ [world.table])[version]?

def begun (world : CacheWorld) (key : Bytes) (slice : Slice) : CacheWorld :=
  { world with readers := world.readers ++ [⟨key, slice, world.returned, .asking⟩] }

/-- The cache without the slices of a row; a cache that is turned off stays as it is. -/
def dropRow (capacity : Nat) (stripe : Bytes → Stripe) (cache : Cache) (key : Bytes) : Cache :=
  if 0 < capacity then cache.invalidate (stripe key) key else cache

def readerTo (world : CacheWorld) (index : Nat) (reader : CacheReader) (phase : ReadPhase) :
    CacheWorld :=
  { world with readers := world.readers.set index { reader with phase := phase } }

/-- The world with another writer in the place of one. -/
def writerTo (world : CacheWorld) (index : Nat) (writer : CacheWriter) : CacheWorld :=
  { world with writers := world.writers.set index writer }

/-- The world after a writer has written a row, which led to the given table. -/
def wroteRow (world : CacheWorld) (index : Nat) (writer : CacheWriter) (key : Bytes)
    (table : Table) : CacheWorld :=
  { world.writerTo index { writer with writes := writer.writes ++ [⟨key, world.now + 1⟩] } with
    past := world.past ++ [world.table]
    table := table }

/-- The world after a writer, which has others left, has invalidated a row. -/
def invalidatedRow (capacity : Nat) (stripe : Bytes → Stripe) (world : CacheWorld) (index : Nat)
    (writer : CacheWriter) (key : Bytes) (keys : List Bytes) : CacheWorld :=
  { world.writerTo index { writer with phase := .dropping keys } with
    cache := dropRow capacity stripe world.cache key
    settled := world.settled ++ writer.writes.filter fun write => write.key = key }

/-- What can happen next. -/
inductive Step (capacity : Nat) (stripe : Bytes → Stripe) : CacheWorld → CacheWorld → Prop where
  | began (world : CacheWorld) (key : Bytes) (slice : Slice) :
      Step capacity stripe world (world.begun key slice)
  | bypassed {world : CacheWorld} {index : Nat} {reader : CacheReader} (off : capacity = 0)
      (present : world.readers[index]? = some reader) (phase : reader.phase = .asking) :
      Step capacity stripe world (world.readerTo index reader (.missed none))
  | hit {world : CacheWorld} {index : Nat} {reader : CacheReader} {entries : List Entry}
      {cache : Cache} (caching : 0 < capacity)
      (present : world.readers[index]? = some reader) (phase : reader.phase = .asking)
      (found : world.cache.lookup reader.key reader.slice = (some entries, cache)) :
      Step capacity stripe world
        { world.readerTo index reader (.answered entries) with cache := cache }
  | missed {world : CacheWorld} {index : Nat} {reader : CacheReader} {cache : Cache}
      (caching : 0 < capacity)
      (present : world.readers[index]? = some reader) (phase : reader.phase = .asking)
      (absent : world.cache.lookup reader.key reader.slice = (none, cache)) :
      Step capacity stripe world
        { world.readerTo index reader (.missed (some (cache.epoch (stripe reader.key)))) with
          cache := cache }
  | loaded {world : CacheWorld} {index : Nat} {reader : CacheReader} {seen : Option Nat}
      (present : world.readers[index]? = some reader) (phase : reader.phase = .missed seen) :
      Step capacity stripe world
        (world.readerTo index reader
          (.loaded seen (Table.slice world.table reader.key reader.slice)))
  | failed {world : CacheWorld} {index : Nat} {reader : CacheReader} {seen : Option Nat}
      (present : world.readers[index]? = some reader) (phase : reader.phase = .missed seen) :
      Step capacity stripe world (world.readerTo index reader .failed)
  | filled {world : CacheWorld} {index : Nat} {reader : CacheReader} {seen : Nat}
      {entries : List Entry} (present : world.readers[index]? = some reader)
      (phase : reader.phase = .loaded (some seen) entries) :
      Step capacity stripe world
        { world.readerTo index reader (.answered entries) with
          cache := world.cache.fill capacity (stripe reader.key) seen
            ⟨reader.key, reader.slice, entries⟩ }
  | handedOn {world : CacheWorld} {index : Nat} {reader : CacheReader} {entries : List Entry}
      (present : world.readers[index]? = some reader)
      (phase : reader.phase = .loaded none entries) :
      Step capacity stripe world (world.readerTo index reader (.answered entries))
  | evicted (world : CacheWorld) (keep : CachedSlice → Bool) :
      Step capacity stripe world
        { world with cache := { world.cache with slices := world.cache.slices.filter keep } }
  | opened (world : CacheWorld) (keys : List Bytes) :
      Step capacity stripe world { world with writers := world.writers ++ [⟨keys, [], .writing⟩] }
  | wrote {world : CacheWorld} {index : Nat} {writer : CacheWriter} {key : Bytes}
      (present : world.writers[index]? = some writer) (phase : writer.phase = .writing)
      (own : key ∈ writer.keys) (row : Row) :
      Step capacity stripe world
        (world.wroteRow index writer key (Table.putRow world.table key row))
  | finished {world : CacheWorld} {index : Nat} {writer : CacheWriter}
      (present : world.writers[index]? = some writer) (phase : writer.phase = .writing) :
      Step capacity stripe world
        (world.writerTo index { writer with phase := .dropping writer.keys })
  | invalidated {world : CacheWorld} {index : Nat} {writer : CacheWriter} {key : Bytes}
      {keys : List Bytes} (present : world.writers[index]? = some writer)
      (phase : writer.phase = .dropping (key :: keys)) :
      Step capacity stripe world (invalidatedRow capacity stripe world index writer key keys)
  | returned {world : CacheWorld} {index : Nat} {writer : CacheWriter}
      (present : world.writers[index]? = some writer) (phase : writer.phase = .dropping []) :
      Step capacity stripe world
        { world.writerTo index { writer with phase := .returned } with
          returned := world.returned ++ writer.writes }
  | cleared (world : CacheWorld) :
      Step capacity stripe world
        { world with cache := if 0 < capacity then world.cache.clear else world.cache }

/-- Any number of steps. -/
inductive Steps (capacity : Nat) (stripe : Bytes → Stripe) (world : CacheWorld) :
    CacheWorld → Prop where
  | refl : Steps capacity stripe world world
  | tail {between after : CacheWorld} (steps : Steps capacity stripe world between)
      (step : Step capacity stripe between after) : Steps capacity stripe world after

variable {capacity : Nat} {stripe : Bytes → Stripe}

theorem Steps.trans {world between after : CacheWorld}
    (first : Steps capacity stripe world between) (second : Steps capacity stripe between after) :
    Steps capacity stripe world after := by
  induction second with
  | refl => exact first
  | tail _ step inductionHypothesis => exact inductionHypothesis.tail step

/-! ### The invariant -/

/-- The entries are a slice of the state of the given number. -/
def ShowsAt (world : CacheWorld) (key : Bytes) (slice : Slice) (entries : List Entry)
    (version : Nat) : Prop :=
  ∃ table, world.tableAt? version = some table ∧ entries = Table.slice table key slice

/-- No listed write of the row is younger than the version. -/
def NotBefore (key : Bytes) (writes : List RowWrite) (version : Nat) : Prop :=
  ∀ write ∈ writes, write.key = key → write.version ≤ version

/-- The entries are the slice of some state that has every listed write of the row. -/
def FreshAt (world : CacheWorld) (writes : List RowWrite) (key : Bytes) (slice : Slice)
    (entries : List Entry) : Prop :=
  ∃ version, world.ShowsAt key slice entries version ∧ NotBefore key writes version

/-- A cached slice shows a state behind all invalidated writes of its row. -/
structure GoodSlice (capacity : Nat) (world : CacheWorld) (held : CachedSlice) : Prop where
  caching : 0 < capacity
  shows : world.FreshAt world.settled held.key held.slice held.entries

/-- An epoch that a read has seen is not ahead of the cache. -/
def SeenBy (capacity : Nat) (stripe : Bytes → Stripe) (world : CacheWorld) (key : Bytes)
    (seen : Option Nat) : Prop :=
  ∀ epoch, seen = some epoch → 0 < capacity ∧ epoch ≤ world.cache.epoch (stripe key)

/-- What a phase of a read stands for. Entries show a state behind the writes that returned before
the read began, and, as long as a fill with them counts, behind all invalidated writes. -/
def GoodPhase (capacity : Nat) (stripe : Bytes → Stripe) (world : CacheWorld)
    (reader : CacheReader) : ReadPhase → Prop
  | .asking => True
  | .missed seen => world.SeenBy capacity stripe reader.key seen
  | .loaded seen entries =>
    world.SeenBy capacity stripe reader.key seen ∧
      ∃ version, world.ShowsAt reader.key reader.slice entries version ∧
        NotBefore reader.key reader.before version ∧
        (seen = some (world.cache.epoch (stripe reader.key)) →
          NotBefore reader.key world.settled version)
  | .answered entries => world.FreshAt reader.before reader.key reader.slice entries
  | .failed => True

/-- A read in a phase that it is entitled to, begun behind invalidated writes. -/
structure GoodReader (capacity : Nat) (stripe : Bytes → Stripe) (world : CacheWorld)
    (reader : CacheReader) : Prop where
  before : ∀ write ∈ reader.before, write ∈ world.settled
  phase : world.GoodPhase capacity stripe reader reader.phase

/-- A writer past its writes has invalidated, or is going to invalidate, each row it wrote. -/
structure GoodWriter (world : CacheWorld) (writer : CacheWriter) : Prop where
  made : ∀ write ∈ writer.writes, write.version ≤ world.now ∧ write.key ∈ writer.keys
  dropped : ∀ keys, writer.phase = .dropping keys →
    ∀ write ∈ writer.writes, write.key ∈ keys ∨ write ∈ world.settled

/-- Nothing that is cached, or is going to be, is older than an invalidated write of its row. -/
structure Sound (capacity : Nat) (stripe : Bytes → Stripe) (world : CacheWorld) : Prop where
  slices : world.cache.All (world.GoodSlice capacity)
  readers : ∀ reader ∈ world.readers, world.GoodReader capacity stripe reader
  writers : ∀ writer ∈ world.writers, world.GoodWriter writer
  settled : ∀ write ∈ world.settled, write.version ≤ world.now
  returned : ∀ write ∈ world.returned, write ∈ world.settled

theorem sound_start (table : Table) : (start table).Sound capacity stripe :=
  ⟨Cache.all_empty _, nofun, nofun, nofun, nofun⟩

/-! ### What every step keeps -/

/-- States of the store are kept, epochs do not fall, and a write is not settled while the epoch of
its stripe stands. -/
structure Keeps (capacity : Nat) (stripe : Bytes → Stripe) (world after : CacheWorld) : Prop where
  tables : ∀ version table, world.tableAt? version = some table →
    after.tableAt? version = some table
  now : world.now ≤ after.now
  settled : ∀ write ∈ world.settled, write ∈ after.settled
  epochs : ∀ stripe, world.cache.epoch stripe ≤ after.cache.epoch stripe
  unmoved : 0 < capacity → ∀ write ∈ after.settled,
    after.cache.epoch (stripe write.key) = world.cache.epoch (stripe write.key) →
      write ∈ world.settled

/-- Most steps change neither the store nor what is settled. -/
theorem keeps_of_same {world after : CacheWorld} (past : after.past = world.past)
    (table : after.table = world.table) (settled : after.settled = world.settled)
    (epochs : ∀ stripe, world.cache.epoch stripe ≤ after.cache.epoch stripe) :
    Keeps capacity stripe world after where
  tables version shown found := by rw [tableAt?, past, table]; exact found
  now := Nat.le_of_eq (congrArg List.length past.symm)
  settled write member := settled ▸ member
  epochs := epochs
  unmoved _ write member _ := settled ▸ member

theorem tableAt?_now (world : CacheWorld) : world.tableAt? world.now = some world.table := by
  rw [tableAt?, now, List.getElem?_append_right (Nat.le_refl _), Nat.sub_self]
  rfl

theorem showsAt_now (world : CacheWorld) (key : Bytes) (slice : Slice) :
    world.ShowsAt key slice (Table.slice world.table key slice) world.now :=
  ⟨world.table, world.tableAt?_now, rfl⟩

namespace Keeps

variable {world after : CacheWorld} (keeps : Keeps capacity stripe world after)
include keeps

theorem showsAt {key : Bytes} {slice : Slice} {entries : List Entry} {version : Nat}
    (shows : world.ShowsAt key slice entries version) :
    after.ShowsAt key slice entries version := by
  obtain ⟨table, found, same⟩ := shows
  exact ⟨table, keeps.tables version table found, same⟩

theorem seenBy {key : Bytes} {seen : Option Nat}
    (seenBy : world.SeenBy capacity stripe key seen) : after.SeenBy capacity stripe key seen :=
  fun epoch same => ⟨(seenBy epoch same).1, Nat.le_trans (seenBy epoch same).2 (keeps.epochs _)⟩

theorem goodPhase {reader : CacheReader} {phase : ReadPhase}
    (good : world.GoodPhase capacity stripe reader phase) :
    after.GoodPhase capacity stripe reader phase := by
  cases phase with
  | asking => trivial
  | missed seen => exact keeps.seenBy good
  | loaded seen entries =>
      obtain ⟨seenBy, version, shows, before, fresh⟩ := good
      refine ⟨keeps.seenBy seenBy, version, keeps.showsAt shows, before, fun stands => ?_⟩
      -- An epoch that stood until now has stood all along, so nothing of the stripe was settled.
      obtain ⟨caching, notAhead⟩ := seenBy _ stands
      have unmoved : after.cache.epoch (stripe reader.key) =
          world.cache.epoch (stripe reader.key) := Nat.le_antisymm notAhead (keeps.epochs _)
      intro write member ofKey
      have settled := keeps.unmoved caching write member (by rw [ofKey]; exact unmoved)
      exact fresh (stands.trans (congrArg some unmoved)) write settled ofKey
  | answered entries =>
      obtain ⟨version, shows, before⟩ := good
      exact ⟨version, keeps.showsAt shows, before⟩
  | failed => trivial

theorem goodReader {reader : CacheReader} (good : world.GoodReader capacity stripe reader) :
    after.GoodReader capacity stripe reader :=
  ⟨fun write member => keeps.settled write (good.before write member), keeps.goodPhase good.phase⟩

theorem goodWriter {writer : CacheWriter} (good : world.GoodWriter writer) :
    after.GoodWriter writer where
  made write member :=
    ⟨Nat.le_trans (good.made write member).1 keeps.now, (good.made write member).2⟩
  dropped keys phase write member :=
    (good.dropped keys phase write member).imp_right (keeps.settled write)

theorem goodSlice {held : CachedSlice} (good : world.GoodSlice capacity held)
    (settled : ∀ write ∈ after.settled, write.key = held.key → write ∈ world.settled) :
    after.GoodSlice capacity held := by
  obtain ⟨version, shows, fresh⟩ := good.shows
  exact ⟨good.caching, version, keeps.showsAt shows,
    fun write member ofKey => fresh write (settled write member ofKey) ofKey⟩

end Keeps

/-! ### Preservation -/

namespace Sound

variable {world after : CacheWorld}

theorem of_keeps (sound : world.Sound capacity stripe) (keeps : Keeps capacity stripe world after)
    (slices : after.cache.All (after.GoodSlice capacity))
    (readers : ∀ reader ∈ after.readers,
      reader ∈ world.readers ∨ after.GoodReader capacity stripe reader)
    (writers : ∀ writer ∈ after.writers, writer ∈ world.writers ∨ after.GoodWriter writer)
    (settled : ∀ write ∈ after.settled, write.version ≤ after.now)
    (returned : ∀ write ∈ after.returned, write ∈ after.settled) :
    after.Sound capacity stripe where
  slices := slices
  readers reader member :=
    (readers reader member).elim (fun old => keeps.goodReader (sound.readers reader old)) id
  writers writer member :=
    (writers writer member).elim (fun old => keeps.goodWriter (sound.writers writer old)) id
  settled := settled
  returned := returned

/-- Steps that change neither the store nor what is settled: what they add must be good as the
world was. -/
theorem of_same (sound : world.Sound capacity stripe) (past : after.past = world.past)
    (table : after.table = world.table) (settled : after.settled = world.settled)
    (epochs : ∀ stripe, world.cache.epoch stripe ≤ after.cache.epoch stripe)
    (returned : ∀ write ∈ after.returned, write ∈ world.settled)
    (slices : after.cache.All (world.GoodSlice capacity))
    (readers : ∀ reader ∈ after.readers,
      reader ∈ world.readers ∨ world.GoodReader capacity stripe reader)
    (writers : ∀ writer ∈ after.writers, writer ∈ world.writers ∨ world.GoodWriter writer) :
    after.Sound capacity stripe := by
  have keeps : Keeps capacity stripe world after := keeps_of_same past table settled epochs
  refine sound.of_keeps keeps ?_ (fun reader member => (readers reader member).imp_right
    keeps.goodReader) (fun writer member => (writers writer member).imp_right keeps.goodWriter)
    (fun write member => ?_) (fun write member => keeps.settled write (returned write member))
  · exact fun held member => keeps.goodSlice (slices held member)
      fun write inAfter _ => settled ▸ inAfter
  · exact Nat.le_trans (sound.settled write (settled ▸ member)) keeps.now

theorem mem_set_cases {α : Type} {members : List α} {index : Nat} {added : α} {good : α → Prop}
    (isGood : good added) : ∀ member ∈ members.set index added, member ∈ members ∨ good member := by
  intro member inSet
  rcases List.mem_or_eq_of_mem_set inSet with old | rfl
  · exact Or.inl old
  · exact Or.inr isGood

theorem mem_append_cases {α : Type} {members : List α} {added : α} {good : α → Prop}
    (isGood : good added) : ∀ member ∈ members ++ [added], member ∈ members ∨ good member := by
  intro member inAppend
  rcases List.mem_append.1 inAppend with old | single
  · exact Or.inl old
  · obtain rfl := List.mem_singleton.1 single
    exact Or.inr isGood

/-- A read that goes on to a good phase keeps the world sound, if the cache stays good. -/
theorem readerTo (sound : world.Sound capacity stripe) {index : Nat} {reader : CacheReader}
    (present : world.readers[index]? = some reader) (phase : ReadPhase)
    (good : world.GoodPhase capacity stripe reader phase) {cache : Cache}
    (epochs : ∀ stripe, cache.epoch stripe = world.cache.epoch stripe)
    (slices : cache.All (world.GoodSlice capacity)) :
    ({ world.readerTo index reader phase with cache := cache } : CacheWorld).Sound
      capacity stripe := by
  have isGood : world.GoodReader capacity stripe { reader with phase := phase } :=
    ⟨(sound.readers reader (List.mem_of_getElem? present)).before, good⟩
  exact sound.of_same rfl rfl rfl (fun stripe => Nat.le_of_eq (epochs stripe).symm) sound.returned
    slices (mem_set_cases isGood) fun _ member => Or.inl member

theorem goodPhase (sound : world.Sound capacity stripe) {index : Nat} {reader : CacheReader}
    (present : world.readers[index]? = some reader) {phase : ReadPhase}
    (same : reader.phase = phase) : world.GoodPhase capacity stripe reader phase :=
  same ▸ (sound.readers reader (List.mem_of_getElem? present)).phase

theorem before_le_now (sound : world.Sound capacity stripe) {index : Nat} {reader : CacheReader}
    (present : world.readers[index]? = some reader) :
    NotBefore reader.key reader.before world.now :=
  fun write member _ => sound.settled write
    ((sound.readers reader (List.mem_of_getElem? present)).before write member)

/-- What is found in the cache shows a state behind all invalidated writes of its row. -/
theorem hit (sound : world.Sound capacity stripe) {index : Nat} {reader : CacheReader}
    (present : world.readers[index]? = some reader) {entries : List Entry} {cache : Cache}
    (found : world.cache.lookup reader.key reader.slice = (some entries, cache)) :
    world.GoodPhase capacity stripe reader (.answered entries) := by
  -- What had returned when the read began is settled, and the held slice is behind all of that.
  obtain ⟨held, member, ofKey, ofSlice, rfl⟩ := Cache.held_of_lookup found
  obtain ⟨version, shows, fresh⟩ := (sound.slices held member).shows
  rw [ofKey, ofSlice] at shows
  have before := (sound.readers reader (List.mem_of_getElem? present)).before
  exact ⟨version, shows, fun write returned sameKey =>
    fresh write (before write returned) (sameKey.trans ofKey.symm)⟩

/-- What is read from the store shows its present state. -/
theorem loaded (sound : world.Sound capacity stripe) {index : Nat} {reader : CacheReader}
    (present : world.readers[index]? = some reader) {seen : Option Nat}
    (phase : reader.phase = .missed seen) :
    world.GoodPhase capacity stripe reader
      (.loaded seen (Table.slice world.table reader.key reader.slice)) :=
  ⟨sound.goodPhase present phase, world.now, world.showsAt_now _ _, sound.before_le_now present,
    fun _ write member _ => sound.settled write member⟩

/-- A fill that counts puts in a slice that is not older than the invalidated writes of its row. -/
theorem filled (sound : world.Sound capacity stripe) {index : Nat} {reader : CacheReader}
    (present : world.readers[index]? = some reader) {seen : Nat} {entries : List Entry}
    (phase : reader.phase = .loaded (some seen) entries) :
    (world.cache.fill capacity (stripe reader.key) seen
      ⟨reader.key, reader.slice, entries⟩).All (world.GoodSlice capacity) := by
  obtain ⟨seenBy, version, shows, -, fresh⟩ := sound.goodPhase present phase
  refine sound.slices.fill capacity (stripe reader.key) fun stands => ?_
  exact ⟨(seenBy seen rfl).1, version, shows, fresh (congrArg some stands.symm)⟩

theorem keeps_wroteRow (index : Nat) (writer : CacheWriter) (key : Bytes) (table : Table) :
    Keeps capacity stripe world (world.wroteRow index writer key table) where
  tables version shown found :=
    (List.getElem?_append_left (List.getElem?_eq_some_iff.1 found).1).trans found
  now := by
    show world.past.length ≤ (world.past ++ [world.table]).length
    rw [List.length_append]
    exact Nat.le_add_right _ _
  settled _ member := member
  epochs _ := Nat.le_refl _
  unmoved _ _ member _ := member

/-- The write of a row keeps the cache sound, since it is not settled before its row is
invalidated. -/
theorem wrote (sound : world.Sound capacity stripe) {index : Nat} {writer : CacheWriter}
    (present : world.writers[index]? = some writer) (phase : writer.phase = .writing)
    {key : Bytes} (own : key ∈ writer.keys) (table : Table) :
    (world.wroteRow index writer key table).Sound capacity stripe := by
  have keeps : Keeps capacity stripe world (world.wroteRow index writer key table) :=
    keeps_wroteRow index writer key table
  refine sound.of_keeps keeps ?_ (fun _ member => Or.inl member) (mem_set_cases ?_) ?_
    sound.returned
  · exact fun held member => keeps.goodSlice (sound.slices held member) fun _ inAfter _ => inAfter
  · have good := sound.writers writer (List.mem_of_getElem? present)
    refine ⟨fun write member => ?_, fun keys dropping => ?_⟩
    · rcases List.mem_append.1 member with old | added
      · exact ⟨Nat.le_trans (good.made write old).1 keeps.now, (good.made write old).2⟩
      · obtain rfl := List.mem_singleton.1 added
        have later : (world.wroteRow index writer key table).now = world.now + 1 :=
          List.length_append
        exact ⟨Nat.le_of_eq later.symm, own⟩
    · exact absurd (phase.symm.trans dropping) nofun
  · exact fun write member => Nat.le_trans (sound.settled write member) keeps.now

theorem mem_filter_key {writes : List RowWrite} {key : Bytes} {write : RowWrite} :
    write ∈ writes.filter (fun write => write.key = key) ↔ write ∈ writes ∧ write.key = key := by
  rw [List.mem_filter, decide_eq_true_iff]

theorem keeps_invalidatedRow (index : Nat) (writer : CacheWriter) (key : Bytes)
    (keys : List Bytes) :
    Keeps capacity stripe world
      (invalidatedRow capacity stripe world index writer key keys) where
  tables _ _ found := found
  now := Nat.le_refl _
  settled _ member := List.mem_append_left _ member
  epochs other := by
    show world.cache.epoch other ≤ (dropRow capacity stripe world.cache key).epoch other
    rw [dropRow]
    split
    · rw [Cache.epoch_invalidate]
      split
      · exact Nat.le_succ _
      · exact Nat.le_refl _
    · exact Nat.le_refl _
  unmoved caching write member unmoved := by
    rcases List.mem_append.1 member with old | new
    · exact old
    -- The invalidation has moved the epoch of what it settles.
    · replace unmoved : (dropRow capacity stripe world.cache key).epoch (stripe write.key) =
        world.cache.epoch (stripe write.key) := unmoved
      rw [dropRow, if_pos caching, (mem_filter_key.1 new).2, Cache.epoch_invalidate,
        if_pos rfl] at unmoved
      exact absurd unmoved (Nat.succ_ne_self _)

/-- What an invalidation leaves in the cache is of other rows than those it settles. -/
theorem slices_invalidatedRow (sound : world.Sound capacity stripe) (index : Nat)
    (writer : CacheWriter) (key : Bytes) (keys : List Bytes) :
    let after := invalidatedRow capacity stripe world index writer key keys
    after.cache.All (after.GoodSlice capacity) := by
  intro after held member
  have keeps : Keeps capacity stripe world after := keeps_invalidatedRow index writer key keys
  replace member : held ∈ (dropRow capacity stripe world.cache key).slices := member
  by_cases caching : 0 < capacity
  · rw [dropRow, if_pos caching] at member
    have other := Cache.key_ne_of_mem_invalidate member
    refine keeps.goodSlice (sound.slices.invalidate (stripe key) key held member)
      fun write inAfter ofHeld => ?_
    refine (List.mem_append.1 inAfter).resolve_right fun new => other ?_
    exact ofHeld.symm.trans (mem_filter_key.1 new).2
  · rw [dropRow, if_neg caching] at member
    exact absurd (sound.slices held member).caching caching

/-- Dropping the slices of a row keeps the cache sound, with the writes of the row now settled. -/
theorem invalidated (sound : world.Sound capacity stripe) {index : Nat} {writer : CacheWriter}
    (present : world.writers[index]? = some writer) {key : Bytes} {keys : List Bytes}
    (phase : writer.phase = .dropping (key :: keys)) :
    (invalidatedRow capacity stripe world index writer key keys).Sound capacity stripe := by
  have good := sound.writers writer (List.mem_of_getElem? present)
  refine sound.of_keeps (keeps_invalidatedRow index writer key keys)
    (sound.slices_invalidatedRow index writer key keys) (fun _ member => Or.inl member)
    (mem_set_cases ?_) ?_ ?_
  · refine ⟨good.made, fun others same write member => ?_⟩
    obtain rfl : keys = others := WritePhase.dropping.inj same
    rcases good.dropped (key :: keys) phase write member with listed | settled
    · rcases List.mem_cons.1 listed with ofKey | later
      · exact Or.inr (List.mem_append_right _ (mem_filter_key.2 ⟨member, ofKey⟩))
      · exact Or.inl later
    · exact Or.inr (List.mem_append_left _ settled)
  · intro write member
    rcases List.mem_append.1 member with old | new
    · exact sound.settled write old
    · exact (good.made write (mem_filter_key.1 new).1).1
  · exact fun write member => List.mem_append_left _ (sound.returned write member)

theorem returned_settled (sound : world.Sound capacity stripe) {index : Nat}
    {writer : CacheWriter} (present : world.writers[index]? = some writer)
    (phase : writer.phase = .dropping []) : ∀ write ∈ writer.writes, write ∈ world.settled :=
  fun write member =>
    have good := sound.writers writer (List.mem_of_getElem? present)
    (good.dropped [] phase write member).resolve_left List.not_mem_nil

/-- A step keeps the cache sound. -/
theorem step (sound : world.Sound capacity stripe) (step : Step capacity stripe world after) :
    after.Sound capacity stripe := by
  cases step with
  | began key slice =>
      exact sound.of_same rfl rfl rfl (fun _ => Nat.le_refl _) sound.returned sound.slices
        (mem_append_cases ⟨sound.returned, trivial⟩) fun _ member => Or.inl member
  | bypassed off present phase =>
      exact sound.readerTo present (.missed none) nofun (fun _ => rfl) sound.slices
  | hit caching present phase found =>
      rename_i index reader entries cache
      have epochs := world.cache.epoch_lookup reader.key reader.slice
      have slices := sound.slices.lookup reader.key reader.slice
      rw [found] at epochs slices
      exact sound.readerTo present (.answered entries) (sound.hit present found) epochs slices
  | missed caching present phase absent =>
      rename_i index reader cache
      have epochs := world.cache.epoch_lookup reader.key reader.slice
      have slices := sound.slices.lookup reader.key reader.slice
      rw [absent] at epochs slices
      refine sound.readerTo present (.missed (some (cache.epoch (stripe reader.key))))
        (fun epoch same => ⟨caching, ?_⟩) epochs slices
      exact Option.some.inj same ▸ Nat.le_of_eq (epochs _)
  | loaded present phase =>
      exact sound.readerTo present _ (sound.loaded present phase) (fun _ => rfl) sound.slices
  | failed present phase =>
      exact sound.readerTo present .failed trivial (fun _ => rfl) sound.slices
  | filled present phase =>
      obtain ⟨-, version, shows, before, -⟩ := sound.goodPhase present phase
      exact sound.readerTo present (.answered _) ⟨version, shows, before⟩
        (fun _ => Cache.epoch_fill ..) (sound.filled present phase)
  | handedOn present phase =>
      obtain ⟨-, version, shows, before, -⟩ := sound.goodPhase present phase
      exact sound.readerTo present (.answered _) ⟨version, shows, before⟩ (fun _ => rfl)
        sound.slices
  | evicted keep =>
      exact sound.of_same rfl rfl rfl (fun _ => Nat.le_refl _) sound.returned
        (sound.slices.of_subset fun _ member => (List.mem_filter.1 member).1)
        (fun _ member => Or.inl member) fun _ member => Or.inl member
  | opened keys =>
      exact sound.of_same rfl rfl rfl (fun _ => Nat.le_refl _) sound.returned sound.slices
        (fun _ member => Or.inl member) (mem_append_cases ⟨nofun, nofun⟩)
  | wrote present phase own row => exact sound.wrote present phase own _
  | finished present phase =>
      have made := (sound.writers _ (List.mem_of_getElem? present)).made
      refine sound.of_same rfl rfl rfl (fun _ => Nat.le_refl _) sound.returned sound.slices
        (fun _ member => Or.inl member) (mem_set_cases ⟨made, fun keys same write member => ?_⟩)
      exact Or.inl (WritePhase.dropping.inj same ▸ (made write member).2)
  | invalidated present phase => exact sound.invalidated present phase
  | returned present phase =>
      have good := sound.writers _ (List.mem_of_getElem? present)
      refine sound.of_same rfl rfl rfl (fun _ => Nat.le_refl _) (fun write member => ?_)
        sound.slices (fun _ member => Or.inl member) (mem_set_cases ⟨good.made, nofun⟩)
      exact (List.mem_append.1 member).elim (sound.returned write)
        (sound.returned_settled present phase write)
  | cleared =>
      have epochs : ∀ other, world.cache.epoch other ≤
          (if 0 < capacity then world.cache.clear else world.cache).epoch other := by
        intro other
        split
        · rw [Cache.epoch_clear]
          exact Nat.le_succ _
        · exact Nat.le_refl _
      refine sound.of_same rfl rfl rfl epochs sound.returned ?_ (fun _ member => Or.inl member)
        fun _ member => Or.inl member
      show Cache.All _ (if 0 < capacity then world.cache.clear else world.cache)
      split
      · exact nofun
      · exact sound.slices

/-- Every run keeps the cache sound. -/
theorem steps (sound : world.Sound capacity stripe) (steps : Steps capacity stripe world after) :
    after.Sound capacity stripe := by
  induction steps with
  | refl => exact sound
  | tail _ next inductionHypothesis => exact inductionHypothesis.step next

end Sound

end CacheWorld

end GraphStore
