import GraphStore.Action
import GraphStore.Bytes
import GraphStore.Decimal.Reading
import GraphStore.Double
import GraphStore.Encoding.Cursor
import GraphStore.Text.Classes

/-!
Contract: attribute values in stored form.

Owns:
- conversion of a dynamically typed value to a declared type;
- the rule that NaN is no attribute;
- the bytes of a value, which keep the order of the values of one type, and the
  reading step that ends exactly behind them;
- the self-describing form, a type tag before the bytes.
-/

namespace GraphStore

open Encoding

namespace DataType

/-- The integer a text denotes, blanks at either end aside. -/
def readInteger? (content : String) : Option Int :=
  Decimal.readInt? (Text.trim content.toList)

def readFlag? (content : String) : Option Bool :=
  let word := String.ofList (Text.trim content.toList)
  if word = "true" then some true else if word = "false" then some false else none

/-- The flag an integer stands for: one or zero. -/
def flagOfInt? (number : Int) : Option Bool :=
  if number = 0 then some false else if number = 1 then some true else none

/-- An integer as 32-bit value, if it lies in the range. -/
def int32OfInt? (number : Int) : Option Int32 :=
  if Word.holds 32 number then some (Int32.ofInt number) else none

/-- An integer as 64-bit value, if it lies in the range. -/
def int64OfInt? (number : Int) : Option Int64 :=
  if Word.holds 64 number then some (Int64.ofInt number) else none

/-- A double as 32-bit value, if it is an integer in the range. Both bounds are doubles. -/
def int32OfDouble? (number : Double) : Option Int32 :=
  if number.fraction.equals .zero && (Double.ofInt (-Word.reach 32)).atMost number
      && number.atMost (Double.ofInt (Word.reach 32 - 1)) then
    some (Int32.ofInt (number.toWord 32))
  else none

/-- A double as 64-bit value, if it is an integer in the range. The greatest value of the range is
no double: the one next to it is the first integer beyond, which is excluded. -/
def int64OfDouble? (number : Double) : Option Int64 :=
  if number.fraction.equals .zero && (Double.ofInt (-Word.reach 64)).atMost number
      && number.below (Double.ofInt (Word.reach 64 - 1)) then
    some (Int64.ofInt (number.toWord 64))
  else none

def toBool? : Value → Option Bool
  | .bool flag => some flag
  | .int number => flagOfInt? number.toInt
  | .long number => flagOfInt? number.toInt
  | .text content => readFlag? content
  | _ => none

def toInt32? : Value → Option Int32
  | .int number => some number
  | .long number => int32OfInt? number.toInt
  | .double number => int32OfDouble? number
  | .text content => (readInteger? content).bind int32OfInt?
  | _ => none

def toInt64? : Value → Option Int64
  | .int number => int64OfInt? number.toInt
  | .long number => some number
  | .double number => int64OfDouble? number
  | .text content => (readInteger? content).bind int64OfInt?
  | _ => none

def toDouble? : Value → Option Double
  | .int number => some (Double.ofInt number.toInt)
  | .long number => some (Double.ofInt number.toInt)
  | .double number => some number
  | .text content => Decimal.readDouble? (Text.trim content.toList)
  | _ => none

def toText? : Value → Option String
  | .bytes _ => none
  | value => some value.plainText

def toBytes? : Value → Option Bytes
  | .bytes content => some content
  | .text content => some (Bytes.ofString content)
  | _ => none

def convert? (target : DataType) (value : Value) : Option Value :=
  match target with
  | boolean => (toBool? value).map .bool
  | integer => (toInt32? value).map .int
  | long => (toInt64? value).map .long
  | double => (toDouble? value).map .double
  | string => (toText? value).map .text
  | bytes => (toBytes? value).map .bytes

def convert (target : DataType) (value : Value) : Result Value :=
  match target.convert? value with
  | some converted => .ok converted
  | none => .error (.invalidValue (.inconvertible value target))

end DataType

namespace Value

/-- Rejects NaN, the one value without a stored form. -/
def verify : Value → Result Unit
  | double number => if number.isNaN then .error (.invalidValue .nanAttribute) else .ok ()
  | _ => .ok ()

/-- The stored form of a value; NaN has none and takes no bytes. The two zeros
share one form. -/
def fieldBytes : Value → Bytes
  | bool flag => [if flag then 1 else 0]
  | int number => int32Key number
  | long number => int64Key number
  | double number => if number.isNaN then [] else doubleBitsKey number.dropZeroSign
  | text content => escaped (Bytes.ofString content)
  | bytes content => escaped content

/-- The stored form of a verified value. -/
def encode (value : Value) : Result Bytes := do
  value.verify
  return value.fieldBytes

end Value

namespace DataType

/-- Converts a value to the declared type. Doubles alone are verified: every other type stores all
its values. -/
def coerce (target : DataType) (value : Value) : Result Value :=
  match target with
  | double => do
    let converted ← double.convert value
    converted.verify
    return converted
  | target => target.convert value

/-- The stored form of a value in a field of the declared type. -/
def write (target : DataType) (value : Value) : Result Bytes := do
  let converted ← target.convert value
  converted.verify
  return converted.fieldBytes

/-- Appends the stored form of a value, in a field of the declared type, to what was written. -/
def append (target : DataType) (value : Value) : Action Bytes Unit := do
  let converted ← Action.ofResult (target.convert value)
  Action.ofResult converted.verify
  modify (· ++ converted.fieldBytes)

def readBool : Read Bool := do
  let byte ← Read.uint8
  if byte = 0 then return false
  else if byte = 1 then return true
  else Read.damaged (.badBool byte)

def readText : Read String := do
  let content ← Read.escaped
  match content.toString? with
  | some text => return text
  | none => Read.damaged .textNotUtf8

def read : DataType → Read Value
  | boolean => Value.bool <$> readBool
  | integer => Value.int <$> Read.int32
  | long => Value.long <$> Read.int64
  | double => Value.double <$> Read.double
  | string => Value.text <$> readText
  | bytes => Value.bytes <$> Read.escaped

/-- The value of the declared type that takes up a whole byte string. -/
def decode (dataType : DataType) (source : Bytes) : Result Value :=
  Read.answer (do
    let value ← dataType.read
    Read.finish .trailingValue
    return value) source

def readTag : Read DataType := do
  let tag ← Read.uint8
  match ofTag? tag with
  | some dataType => return dataType
  | none => Read.damaged (.unknownTag tag)

end DataType

namespace Value

/-- The self-describing form of a value: its type tag and its stored form. -/
def encodeTagged (value : Value) : Result Bytes := do
  let content ← value.dataType.write value
  return value.dataType.tag :: content

/-- The value whose self-describing form takes up a whole byte string. -/
def decodeTagged (source : Bytes) : Result Value :=
  Read.answer (do
    let dataType ← DataType.readTag
    let value ← dataType.read
    Read.finish .trailingTagged
    return value) source

end Value

end GraphStore
