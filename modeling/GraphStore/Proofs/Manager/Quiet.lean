import GraphStore.Proofs.Cache.Steps
import GraphStore.Proofs.Manager.Fallible
import GraphStore.Transaction

/-!
Contract: stores that do not change when they are read.

Owns the managers whose stores are acquired and read without a change of what shows of them
(`QuietReads`), through caches and from within a transaction too (`QuietReads.keeps_getSlice`). Of
guarded managers the whole state is left alone, and injected failures keep what shows.
-/

namespace GraphStore

/-- A manager that acquires and reads stores without a change of what shows of them. -/
structure QuietReads {σ : Type} (manager : Manager σ) where
  View : Type
  shown : σ → View
  opens : ∀ name, (manager.openStore name).Keeps shown
  reads : ∀ store key slice, (manager.getSlice store key slice).Keeps shown

namespace QuietReads

open CachedStores

variable {σ : Type} {manager : Manager σ} (quiet : QuietReads manager)

/-- What shows of the stores beside a pool of caches. -/
def beside (world : CachePool × σ) : quiet.View := quiet.shown world.2

/-! ### Through caches -/

theorem keeps_read : Part.first.read.Keeps quiet.beside := fun _ => rfl

theorem keeps_change (change : CachePool → CachePool) :
    (Part.first.change change).Keeps quiet.beside := fun _ => rfl

variable (stripe : Bytes → Stripe)

/-- Acquiring a handle changes nothing of what shows. -/
theorem keeps_store (name : String) : ((pooled manager stripe).store name).Keeps quiet.beside := by
  refine .bind quiet.keeps_read fun pool => ?_
  split
  · exact .pure _
  · refine .bind (fun world => quiet.opens name world.2) fun store => ?_
    refine .bind quiet.keeps_read fun pool => ?_
    exact .bind (quiet.keeps_change _) fun _ => .pure _

theorem keeps_lookup (handle : CachedStore) (key : Bytes) (slice : Slice) :
    ((pooled manager stripe).lookup handle key slice).Keeps quiet.beside := by
  refine .bind quiet.keeps_read fun pool => ?_
  refine .bind (quiet.keeps_change _) fun _ => ?_
  split <;> exact .pure _

theorem keeps_cachedSlice (handle : CachedStore) (key : Bytes) (slice : Slice) :
    ((pooled manager stripe).getSlice handle key slice).Keeps quiet.beside := by
  have reads : ((pooled manager stripe).manager.getSlice handle.store key slice).Keeps
      quiet.beside := fun world => quiet.reads handle.store key slice world.2
  refine .bind quiet.keeps_read fun pool => ?_
  split
  · refine .bind (quiet.keeps_lookup stripe handle key slice) fun found => ?_
    split
    · exact .pure _
    · refine .bind reads fun entries => ?_
      exact .bind (quiet.keeps_change _) fun _ => .pure _
  · exact reads

/-- A read within a transaction. -/
theorem keeps_getSlice (transaction : Transaction) (store : String) (key : Bytes) (slice : Slice) :
    (transaction.getSlice (pooled manager stripe) store key slice).Keeps quiet.beside := by
  refine .bind (.ofResult _) fun _ => ?_
  refine .bind (quiet.keeps_store stripe store) fun handle => ?_
  split
  · exact quiet.keeps_cachedSlice stripe handle key slice
  · refine .bind (.ofResult _) fun bounds => ?_
    exact .bind (quiet.keeps_cachedSlice stripe handle key bounds) fun _ => .pure _

/-! ### Both backends -/

/-- Injected failures leave what shows of the stores alone. -/
def interrupted : QuietReads manager.interrupted where
  View := quiet.View
  shown world := quiet.shown world.2
  opens name world := by
    obtain ⟨script, through | ⟨text, failed⟩⟩ := (manager.openStore name).interruptible_cases world
    · rw [show manager.interrupted.openStore name world = _ from through]
      exact quiet.opens name world.2
    · rw [show manager.interrupted.openStore name world = _ from failed]
  reads store key slice world := quiet.reads store key slice world.2

end QuietReads

/-- Opening and reading leave the whole state of a guarded manager alone. -/
def GuardedManager.quiet {σ : Type} {manager : Manager σ} (guarded : GuardedManager manager) :
    QuietReads manager where
  View := σ
  shown := id
  opens name state := by
    cases closed : guarded.closed state with
    | false => rw [guarded.openStore_of_open closed]
    | true => rw [(guarded.refuses closed).opens]
  reads handle key slice state := by
    cases closed : guarded.closed state with
    | false => rw [guarded.getSlice_of_handle closed]
    | true => rw [(guarded.refuses closed).reads]

/-- Opening and reading leave the backend in memory alone. -/
def Memory.quiet : QuietReads Memory.manager := guarded.quiet

/-- Opening and reading leave the backend with the log alone. -/
def Embedded.quiet : QuietReads Embedded.manager := guarded.quiet

end GraphStore
