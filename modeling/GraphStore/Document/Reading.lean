import GraphStore.Action
import GraphStore.Json.Reading

/-!
Contract: reading the parts of documents.

Owns the reasons why a document is not accepted, and the readers of plain content:
numbers, flags, texts, lists, and byte strings in hexadecimal. A field that is null counts
as left out wherever a field may be left out.

Here and in the modules beside this one, `asX` reads an X from a document and `getX` from
a field of it; a writer bears the name of what it writes.
-/

namespace GraphStore.Document

inductive Fault where
  /-- It does not have the form that it must have. -/
  | malformed (what : String)
  /-- It has a proper form but stands for nothing. -/
  | unacceptable
  /-- What it asks for fails. -/
  | refused (failure : StoreError)

/-- The content of a document, or why there is none. -/
abbrev Reading (α : Type) := Except Fault α

variable {α : Type}

/-- Rejects a document that does not have the named form. -/
def malformed (what : String) : Reading α := .error (.malformed what)

/-- What a document of the named form must contain. -/
def need (what : String) : Option α → Reading α
  | some found => .ok found
  | none => malformed what

/-- What a document of proper form stands for, if it stands for anything. -/
def accept : Option α → Reading α
  | some found => .ok found
  | none => .error .unacceptable

def orRefuse : Result α → Reading α
  | .ok found => .ok found
  | .error failure => .error (.refused failure)

def asked : Reading α → Reading (Result α)
  | .ok found => .ok (.ok found)
  | .error (.refused failure) => .ok (.error failure)
  | .error fault => .error fault

/-- A failed operation refuses what was asked for. -/
instance {σ : Type} : MonadLift (ExceptT StoreError (StateM σ)) (ExceptT Fault (StateM σ)) where
  monadLift action := ExceptT.adapt Fault.refused action

/-! ### Plain content -/

def asInt : Json → Reading Int
  | .int value => .ok value
  | _ => malformed "integer"

def asNat (document : Json) : Reading Nat := do
  let value ← asInt document
  if 0 ≤ value then return value.toNat else malformed "natural number"

def asUInt64 (document : Json) : Reading UInt64 := UInt64.ofNat <$> asNat document

def asUInt32 (document : Json) : Reading UInt32 := UInt32.ofNat <$> asNat document

def asStr (document : Json) : Reading String := need "text" document.asString?

def asBool (document : Json) : Reading Bool := need "flag" document.asBool?

def asArr (document : Json) : Reading (List Json) := need "list" document.asArray?

def asList (read : Json → Reading α) (document : Json) : Reading (List α) := do
  (← asArr document).mapM read

/-- The bytes of a text with two hexadecimal digits for each. -/
def bytesOfHex? : List Char → Option Bytes
  | [] => some []
  | high :: low :: rest => do
    let byte := (← Json.hexValue? high) * 16 + (← Json.hexValue? low)
    return UInt8.ofNat byte :: (← bytesOfHex? rest)
  | _ => none

def asHex (document : Json) : Reading Bytes := do
  need "bytes" (bytesOfHex? (← asStr document).toList)

/-- A byte string; null is the empty one. -/
def asHexOrEmpty : Json → Reading Bytes
  | .null => .ok []
  | document => asHex document

/-! ### Fields -/

def opt (document : Json) (name : String) : Option Json :=
  match document.field? name with
  | some .null => none
  | found => found

/-- A field that must be there; one left out is read as null. -/
def get (document : Json) (name : String) (read : Json → Reading α) : Reading α :=
  read ((document.field? name).getD .null)

/-- A field that may be left out, with what stands for it then. -/
def getOr (document : Json) (name : String) (default : α) (read : Json → Reading α) :
    Reading α :=
  match opt document name with
  | some content => read content
  | none => .ok default

def get? (document : Json) (name : String) (read : Json → Reading α) : Reading (Option α) :=
  getOr document name none fun content => some <$> read content

def getNat (document : Json) (name : String) : Reading Nat := get document name asNat

def getWord (document : Json) (name : String) : Reading UInt64 := get document name asUInt64

def getStr (document : Json) (name : String) : Reading String := get document name asStr

def getHex (document : Json) (name : String) : Reading Bytes := get document name asHex

/-- The flag in a field; a field left out is not set. -/
def getFlag (document : Json) (name : String) : Reading Bool := getOr document name false asBool

/-- The list in a field; a field left out is the empty list. -/
def getList (document : Json) (name : String) (read : Json → Reading α) : Reading (List α) :=
  getOr document name [] (asList read)

end GraphStore.Document
