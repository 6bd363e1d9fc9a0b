import GraphStore.Bytes
import GraphStore.Decimal.Layout
import GraphStore.Text.Quoted

/-!
Contract: attribute values and their declared types.

Owns the six value types with their tags, dynamically typed values, and the two
texts of a value: the plain one, which text coercion yields, and the one that
messages show.
-/

namespace GraphStore

inductive DataType where
  | boolean
  | integer
  | long
  | double
  | string
  | bytes
deriving DecidableEq, Repr

/-- An attribute value together with its natural type. -/
inductive Value where
  | bool (flag : Bool)
  | int (number : Int32)
  | long (number : Int64)
  | double (number : Double)
  | text (content : String)
  | bytes (content : Bytes)
deriving DecidableEq, Repr

namespace DataType

def label : DataType → String
  | boolean => "Boolean"
  | integer => "Integer"
  | long => "Long"
  | double => "Double"
  | string => "String"
  | bytes => "Bytes"

/-- The byte that announces a type in self-describing encodings. -/
def tag : DataType → UInt8
  | boolean => 1
  | integer => 2
  | long => 3
  | double => 4
  | string => 5
  | bytes => 6

def ofTag? (tag : UInt8) : Option DataType :=
  match tag.toNat with
  | 1 => some boolean
  | 2 => some integer
  | 3 => some long
  | 4 => some double
  | 5 => some string
  | 6 => some bytes
  | _ => none

theorem ofTag?_tag (dataType : DataType) : ofTag? dataType.tag = some dataType := by
  cases dataType <;> rfl

end DataType

namespace Value

def dataType : Value → DataType
  | bool _ => .boolean
  | int _ => .integer
  | long _ => .long
  | double _ => .double
  | text _ => .string
  | bytes _ => .bytes

def intText (number : Int) : String := toString number

def boolText (flag : Bool) : String := if flag then "true" else "false"

/-- The plain text of a value; byte strings show their length only. -/
def plainText : Value → String
  | bool flag => boolText flag
  | int number => intText number.toInt
  | long number => intText number.toInt
  | double number => Decimal.Layout.plain.text number
  | text content => content
  | bytes content => "bytes(len=" ++ toString content.length ++ ")"

/-- Numbers in brackets, separated by commas. -/
def byteList (content : Bytes) : String :=
  "[" ++ String.intercalate ", " (content.map fun byte => toString byte.toNat) ++ "]"

/-- The text of a value in messages: its kind and its content. -/
def messageText : Value → String
  | bool flag => "Bool(" ++ boolText flag ++ ")"
  | int number => "Int(" ++ intText number.toInt ++ ")"
  | long number => "Long(" ++ intText number.toInt ++ ")"
  | double number => "Double(" ++ Decimal.Layout.message.text number ++ ")"
  | text content => "Str(" ++ Text.quote content ++ ")"
  | bytes content => "Bytes(" ++ byteList content ++ ")"

end Value

end GraphStore
