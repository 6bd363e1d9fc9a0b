import GraphStore.Json.Basic
import GraphStore.Decimal.Layout

/-!
Contract: the compact text of a JSON document.

Owns the escapes of strings and the forms of numbers; nothing separates the parts
but commas and colons. Quotes, backslashes and controls below the space are escaped,
and every other character stands for itself.
-/

namespace GraphStore.Json

/-- The two-character escapes of controls. -/
def shortEscape? (char : Char) : Option Char :=
  match char.toNat with
  | 0x08 => some 'b'
  | 0x09 => some 't'
  | 0x0A => some 'n'
  | 0x0C => some 'f'
  | 0x0D => some 'r'
  | _ => none

/-- One character inside a string. -/
def charText (char : Char) : List Char :=
  if char = '"' then ['\\', '"']
  else if char = '\\' then ['\\', '\\']
  else match shortEscape? char with
    | some letter => ['\\', letter]
    | none =>
      if char.toNat < 0x20 then
        ['\\', 'u', '0', '0', Nat.digitChar (char.toNat / 16), Nat.digitChar (char.toNat % 16)]
      else [char]

def stringText (text : String) : String :=
  String.ofList (['"'] ++ text.toList.flatMap charText ++ ['"'])

/-- The text of a double; what is not finite has none and becomes `null`. -/
def doubleText (value : Double) : String :=
  if value.isFinite then Decimal.Layout.json.text value else "null"

mutual

def text : Json → String
  | .null => "null"
  | .bool flag => if flag then "true" else "false"
  | .int value => toString value
  | .double value => doubleText value
  | .str content => stringText content
  | .arr items => "[" ++ itemsText items ++ "]"
  | .obj fields => "\x7b" ++ fieldsText fields ++ "\x7d"

def itemsText : List Json → String
  | [] => ""
  | [item] => item.text
  | item :: items => item.text ++ "," ++ itemsText items

/-- Named fields separated by commas. -/
def fieldsText : List (String × Json) → String
  | [] => ""
  | [(name, value)] => stringText name ++ ":" ++ value.text
  | (name, value) :: fields => stringText name ++ ":" ++ value.text ++ "," ++ fieldsText fields

end

end GraphStore.Json
