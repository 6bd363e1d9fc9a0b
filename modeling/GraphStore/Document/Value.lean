import GraphStore.Document.Row
import GraphStore.Encoding.Field
import GraphStore.Index.Document
import GraphStore.Value.Basic

/-!
Contract: values and encoded fields as documents.

Owns the forms of doubles, of typed values, and of the fields that encoders write and
readers find. A double is written by its bits; all doubles that are not numbers are
written alike.
-/

namespace GraphStore.Document

/-! ### Doubles -/

def numberOfHex? (digits : List Char) : Option Nat :=
  digits.foldlM (fun total digit => do return total * 16 + (← Json.hexValue? digit)) 0

def asDouble (document : Json) : Reading Double := do
  let text ← asStr document
  if text = "nan" then return Double.nan false
  else return ⟨UInt64.ofNat (← need "double" (numberOfHex? text.toList))⟩

def double (value : Double) : Json :=
  .str (if value.isNaN then "nan" else (Bytes.ofUInt64 value.bits).hex)

/-! ### Typed values -/

def asType (document : Json) : Reading DataType := accept (DataType.ofDocument? document)

def dataType (dataType : DataType) : Json := .str dataType.documentName

def asValue (document : Json) : Reading Value := do
  match ← getStr document "t" with
  | "bool" => return .bool (← get document "v" asBool)
  | "int" => return .int (Int32.ofInt (← get document "v" asInt))
  | "long" => return .long (Int64.ofInt (← get document "v" asInt))
  | "double" => return .double (← get document "v" asDouble)
  | "str" => return .text (← get document "v" asStr)
  | "bytes" => return .bytes (← get document "v" asHex)
  | _ => malformed "value"

def tagged (name : String) (content : Json) : Json := .obj [("t", .str name), ("v", content)]

def value : Value → Json
  | .bool content => tagged "bool" (flag content)
  | .int content => tagged "int" (.int content.toInt)
  | .long content => tagged "long" (.int content.toInt)
  | .double content => tagged "double" (double content)
  | .text content => tagged "str" (.str content)
  | .bytes content => tagged "bytes" (hex content)

def getValues (document : Json) (name : String) : Reading (List Value) :=
  get document name (asList asValue)

/-! ### Encoded fields -/

/-- A field to encode: its kind and its content. -/
def asField (document : Json) : Reading Encoding.Field := do
  match ← asArr document with
  | [.str "u8", content] => return .uint8 (UInt8.ofNat (← asNat content))
  | [.str "u32", content] => return .uint32 (← asUInt32 content)
  | [.str "u64", content] => return .uint64 (← asUInt64 content)
  | [.str "i64", content] => return .int64 (Int64.ofInt (← asInt content))
  | [.str "var", content] => return .varint (← asUInt64 content)
  | [.str "raw", content] => return .raw (← asHex content)
  | [.str "esc", content] => return .escaped (← asHex content)
  | _ => malformed "field"

/-- A kind of field to read; the kind `take` names a number of bytes. -/
def asFieldKind : Json → Reading Encoding.FieldKind
  | .str "u8" => .ok .uint8
  | .str "u32" => .ok .uint32
  | .str "u64" => .ok .uint64
  | .str "i64" => .ok .int64
  | .str "i32" => .ok .int32
  | .str "f64" => .ok .double
  | .str "var" => .ok .varint
  | .str "esc" => .ok .escaped
  | .arr [.str "take", count] => .raw <$> asNat count
  | _ => malformed "kind of field"

def fieldContent : Encoding.Field → Json
  | .uint8 content => nat content.toNat
  | .uint32 content => nat content.toNat
  | .uint64 content => word content
  | .int32 content => .int content.toInt
  | .int64 content => .int content.toInt
  | .double content => double content
  | .varint content => word content
  | .escaped content => hex content
  | .raw content => hex content

end GraphStore.Document
