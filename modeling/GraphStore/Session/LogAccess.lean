import GraphStore.Manager.Embedded

/-!
Contract: access to a log behind the back of the backend that writes it.

Owns the edits of the log's file and the limit on its size. The backend's write position
is not touched.
-/

namespace GraphStore

/-- A change of the bytes of a file: what is kept of them, the bits changed in one byte, and
what is appended, in this order. -/
structure LogEdit where
  keep : Option Nat
  /-- The place of a byte, counted from the end when negative, and the bits to change. -/
  flip : Option (Int × UInt8)
  append : Bytes
deriving DecidableEq, Repr

namespace LogEdit

/-- Changes bits of the byte at a place, if there is one. -/
def flipAt (place : Int) (bits : UInt8) (bytes : Bytes) : Bytes :=
  let index := if place < 0 then bytes.length + place else place
  if index < 0 then bytes else bytes.modify index.toNat fun byte => byte ^^^ bits

def apply (edit : LogEdit) (bytes : Bytes) : Bytes :=
  let kept := bytes.take (edit.keep.getD bytes.length)
  let flipped := match edit.flip with
    | some (place, bits) => flipAt place bits kept
    | none => kept
  flipped ++ edit.append

end LogEdit

namespace Embedded

/-- The backend with the file at the log's place changed. -/
def changeLog (change : LogFile → LogFile) (embedded : Embedded) : Embedded :=
  embedded.withLogFile (change embedded.logFile)

def editLog (edit : LogEdit) : Embedded → Embedded :=
  changeLog fun file => { file with bytes := edit.apply file.bytes }

/-- Limits the size of the log, or lifts the limit. -/
def limitLog (limit : Option Nat) (embedded : Embedded) : Embedded :=
  let limited (file : LogFile) : LogFile := { file with sizeLimit := limit }
  { embedded with
    writer := { embedded.writer with file := limited embedded.writer.file }
    replacement := embedded.replacement.map limited }

def logLength (embedded : Embedded) : Nat := embedded.logFile.bytes.length

end Embedded

end GraphStore
