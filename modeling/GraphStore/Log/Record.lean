import GraphStore.Bytes
import GraphStore.Checksum
import GraphStore.Encoding.Cursor
import GraphStore.Table

/-!
Contract: the records of a log.

Owns the payload of a row change, the frame around it, and replay. A frame is

    length (4 bytes) | sequence number (8) | checksum (4) | payload

with big-endian numbers; the checksum covers sequence number and payload. A payload is
the store name, the key, the deleted columns and the added entries, every part with
its length or count in front.

Replay applies records in sequence and stops at the first one that is cut short, out
of sequence, damaged or undecodable.
-/

namespace GraphStore

open Encoding

structure RowChange where
  store : String
  key : Bytes
  additions : List Entry
  deletions : List Bytes
deriving DecidableEq, Repr

namespace RowChange

/-- A byte string behind its length. -/
def sized (content : Bytes) : Bytes := varint content.length ++ content

/-- An added entry: the sized column and the sized value. -/
def encodeEntry (entry : Entry) : Bytes := sized entry.column ++ sized entry.value

def encode (change : RowChange) : Bytes :=
  sized (Bytes.ofString change.store) ++ sized change.key
    ++ varint change.deletions.length ++ change.deletions.flatMap sized
    ++ varint change.additions.length ++ change.additions.flatMap encodeEntry

/-- Reads a byte string behind its length. -/
def readSized : Read Bytes := do
  let length ← Read.varint
  Read.take length.toNat

def readEntry : Read Entry := do
  let column ← readSized
  let value ← readSized
  return ⟨column, value⟩

/-- Reads `count` items. Every item takes at least one byte, so a count beyond the
bytes at hand fails after as many items as there are bytes. -/
def readMany {α : Type} (item : Read α) : (count : Nat) → Read (List α)
  | 0 => return []
  | count + 1 => do
    let first ← item
    let others ← readMany item count
    return first :: others

def readStore : Read String := do
  let name ← readSized
  match name.toString? with
  | some text => return text
  | none => Read.damaged .storeNameNotUtf8

def read : Read RowChange := do
  let store ← readStore
  let key ← readSized
  let deletionCount ← Read.varint
  let deletions ← readMany readSized deletionCount.toNat
  let additionCount ← Read.varint
  let additions ← readMany readEntry additionCount.toNat
  Read.finish .trailingRecord
  return ⟨store, key, additions, deletions⟩

def decode (payload : Bytes) : Result RowChange := read.answer payload

def apply (change : RowChange) (tables : Tables) : Tables :=
  tables.change change.store change.key change.additions change.deletions

end RowChange

namespace Log

/-- The bytes of a frame before its payload. -/
def headerLength : Nat := 16

def payloadLimit : Nat := Word.count 32

def frame (sequence : UInt64) (payload : Bytes) : Bytes :=
  Bytes.bigEndian 4 payload.length ++ Bytes.ofUInt64 sequence
    ++ Bytes.ofUInt32 (Checksum.ofRecord sequence payload) ++ payload

/-- The frame of a row change; an oversized one has none. -/
def encodeFrame (sequence : UInt64) (change : RowChange) : Result Bytes :=
  let payload := change.encode
  if payload.length < payloadLimit then .ok (frame sequence payload)
  else .error (.invalidArgument (.oversizedMutation payload.length))

/-- The first `count` bytes behind the first `skipped` ones. -/
def part (bytes : Bytes) (skipped count : Nat) : Bytes := (bytes.drop skipped).take count

/-- The record with the given sequence number at the front of a log, and the length
of its payload. -/
def readRecord? (sequence : UInt64) (log : Bytes) : Option (RowChange × Nat) :=
  if log.length < headerLength then none
  else
    let length := (part log 0 4).toNat
    if log.length < headerLength + length then none
    else
      let payload := part log headerLength length
      if (part log 4 8).toNat ≠ sequence.toNat then none
      else if (part log 12 4).toNat ≠ (Checksum.ofRecord sequence payload).toNat then none
      else
        match RowChange.decode payload with
        | .ok change => some (change, length)
        | .error _ => none

theorem headerLength_le_of_readRecord? {sequence : UInt64} {log : Bytes}
    {found : RowChange × Nat} (read : readRecord? sequence log = some found) :
    headerLength ≤ log.length := by
  rw [readRecord?] at read
  split at read
  · exact absurd read (by simp)
  · omega

/-- The records at the front of a log, numbered from `sequence` on, and the bytes
behind the last of them. -/
def readRecords (sequence : UInt64) (log : Bytes) : List RowChange × Bytes :=
  match _found : readRecord? sequence log with
  | some (change, length) =>
    let (changes, rest) := readRecords (sequence + 1) (log.drop (headerLength + length))
    (change :: changes, rest)
  | none => ([], log)
termination_by log.length
decreasing_by
  have := headerLength_le_of_readRecord? _found
  simp only [headerLength, List.length_drop] at *
  omega

/-- What replay found: records applied, bytes they take up, bytes behind them. -/
structure ReplayStats where
  records : Nat
  validLength : Nat
  discarded : Nat
deriving DecidableEq, Repr

/-- The tables after a list of row changes, in order. -/
def applyAll (changes : List RowChange) (tables : Tables) : Tables :=
  changes.foldl (fun tables change => change.apply tables) tables

/-- The tables that a log describes, and what was found in it. -/
def replay (log : Bytes) : Tables × ReplayStats :=
  let (changes, rest) := readRecords 0 log
  (applyAll changes .empty, ⟨changes.length, log.length - rest.length, rest.length⟩)

end Log

end GraphStore
