import GraphStore.Bytes
import GraphStore.Slice

/-!
Contract: the slices of one store that a cache holds.

Owns the assignment of row keys to stripes, by a multiplicative hash over the length and the bytes
of a key, read as little-endian words of eight, four, two and one byte, and the steps of a cache:
the lookup, the fill after a store read, the invalidation of a row, and clearing. Slices are kept
most recently used first and the last one goes when the cache is full.

Every invalidation moves the epoch of the row's stripe. A fill counts only if that
epoch is still the one seen at the lookup, so a write between lookup and fill never
leaves the older slice behind. The assignment of stripes decides which concurrent fills are
dropped, never what is read.

Epochs and the counts of hits, misses and invalidations have no bound here, where a machine keeps
them in 64-bit words. An epoch in a word comes round to the one seen at a lookup only if it is moved
`2 ^ 64` times before that one fill; the counts are reported and decide nothing.
-/

namespace GraphStore

/-! ### Stripes -/

abbrev Stripe := Fin 64

namespace Stripe

def seed : UInt64 := 0x517cc1b727220a95

/-- The hash after one more word. -/
def mix (hash word : UInt64) : UInt64 :=
  (((hash <<< 5) ||| (hash >>> 59)) ^^^ word) * seed

/-- The number whose base-256 digits are the bytes, least significant first. -/
def littleEndian : Bytes → UInt64
  | [] => 0
  | byte :: rest => byte.toUInt64 + 256 * littleEndian rest

/-- The hash after words of `width` bytes, and the bytes that fill no word. -/
def mixWords (width : Nat) : (count : Nat) → UInt64 → Bytes → UInt64 × Bytes
  | 0, hash, bytes => (hash, bytes)
  | count + 1, hash, bytes =>
    if bytes.length < width then (hash, bytes)
    else mixWords width count (mix hash (littleEndian (bytes.take width))) (bytes.drop width)

def hash (key : Bytes) : UInt64 :=
  let start := mix 0 (UInt64.ofNat key.length)
  let (hash, rest) := mixWords 8 key.length start key
  let (hash, rest) := mixWords 4 1 hash rest
  let (hash, rest) := mixWords 2 1 hash rest
  (mixWords 1 1 hash rest).1

def ofKey (key : Bytes) : Stripe := Fin.ofNat 64 (hash key).toNat

end Stripe

/-! ### Caches -/

structure CachedSlice where
  key : Bytes
  slice : Slice
  entries : List Entry
deriving DecidableEq, Repr

/-- The slices held for a store, the write epochs, and the counters. -/
structure Cache where
  slices : List CachedSlice
  epochs : Vector Nat 64
  hits : Nat
  misses : Nat
  invalidations : Nat
deriving DecidableEq, Repr

namespace Cache

def empty : Cache := ⟨[], Vector.replicate 64 0, 0, 0, 0⟩

/-- Whether a held slice is the given slice of the given row. -/
def holds (key : Bytes) (slice : Slice) (held : CachedSlice) : Bool :=
  held.key = key && held.slice = slice

def find? (cache : Cache) (key : Bytes) (slice : Slice) : Option CachedSlice :=
  cache.slices.find? (holds key slice)

/-- The cache with a slice in front of the others. -/
def promote (cache : Cache) (held : CachedSlice) : Cache :=
  { cache with
    slices := held :: cache.slices.filter fun other => !holds held.key held.slice other }

/-- Looks a slice up: its entries if it is held, and the cache that has counted it. -/
def lookup (cache : Cache) (key : Bytes) (slice : Slice) : Option (List Entry) × Cache :=
  match cache.find? key slice with
  | some held =>
    (some held.entries, { cache.promote held with hits := cache.hits + 1 })
  | none => (none, { cache with misses := cache.misses + 1 })

def epoch (cache : Cache) (stripe : Stripe) : Nat := cache.epochs[stripe]

/-- Holds a slice, up to `capacity` of them. -/
def put (cache : Cache) (capacity : Nat) (held : CachedSlice) : Cache :=
  let cache := cache.promote held
  { cache with slices := cache.slices.take capacity }

/-- Holds a slice that was read while the stripe was at the given epoch; one that a
write has overtaken is dropped. -/
def fill (cache : Cache) (capacity : Nat) (stripe : Stripe) (seen : Nat)
    (held : CachedSlice) : Cache :=
  if cache.epoch stripe = seen then cache.put capacity held else cache

/-- The number of held slices of a row. -/
def countOf (cache : Cache) (key : Bytes) : Nat :=
  (cache.slices.filter fun held => held.key = key).length

/-- Drops every slice of a row and moves the epoch of its stripe. -/
def invalidate (cache : Cache) (stripe : Stripe) (key : Bytes) : Cache :=
  { cache with
    slices := cache.slices.filter fun held => held.key ≠ key
    epochs := cache.epochs.set stripe (cache.epoch stripe + 1)
    invalidations := cache.invalidations + cache.countOf key }

/-- Drops every slice and moves all epochs; the counters stay. -/
def clear (cache : Cache) : Cache :=
  { cache with slices := [], epochs := cache.epochs.map (· + 1) }

/-- The number of held slices. -/
def size (cache : Cache) : Nat := cache.slices.length

def isEmpty (cache : Cache) : Bool := cache.slices.isEmpty

end Cache

end GraphStore
