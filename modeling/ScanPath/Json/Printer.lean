import ScanPath.Decimal.Layout
import ScanPath.Json.Basic

/-!
# JSON text

`text` writes a value on one line without spaces, `pretty` over several lines
with two spaces per level.  Both keep the order of the fields.
-/

namespace ScanPath.Json

def hexDigit (n : Nat) : Char := (Nat.digitChar n)

def escape (c : Char) : String :=
  if c = '"' then "\\\""
  else if c = '\\' then "\\\\"
  else if c.toNat = 8 then "\\b"
  else if c.toNat = 9 then "\\t"
  else if c.toNat = 10 then "\\n"
  else if c.toNat = 12 then "\\f"
  else if c.toNat = 13 then "\\r"
  else if c.toNat < 32 then
    "\\u00" ++ String.ofList [hexDigit (c.toNat / 16), hexDigit (c.toNat % 16)]
  else c.toString

def quote (text : String) : String :=
  text.toList.foldl (fun written c => written ++ escape c) "\"" ++ "\""

def floatText (x : Float) : String :=
  if x.isFinite then Decimal.canonical.text x else "null"

mutual

def text : Json → String
  | .null => "null"
  | .bool value => if value then "true" else "false"
  | .int value => toString value
  | .float value => floatText value
  | .string value => quote value
  | .array items => "[" ++ itemsText items ++ "]"
  | .object fields => "\x7b" ++ fieldsText fields ++ "\x7d"

def itemsText : List Json → String
  | [] => ""
  | [item] => text item
  | item :: items => text item ++ "," ++ itemsText items

def fieldsText : List (String × Json) → String
  | [] => ""
  | [(name, value)] => quote name ++ ":" ++ text value
  | (name, value) :: fields => quote name ++ ":" ++ text value ++ "," ++ fieldsText fields

end

def canonicalText (json : Json) : String := json.canonical.text

def newline (depth : Nat) : String := "\n" ++ String.ofList (List.replicate (2 * depth) ' ')

mutual

def prettyAt (depth : Nat) : Json → String
  | .array [] => "[]"
  | .array items => "[" ++ prettyItems (depth + 1) items ++ newline depth ++ "]"
  | .object [] => "\x7b\x7d"
  | .object fields => "\x7b" ++ prettyFields (depth + 1) fields ++ newline depth ++ "\x7d"
  | .null => "null"
  | .bool value => if value then "true" else "false"
  | .int value => toString value
  | .float value => floatText value
  | .string value => quote value

def prettyItems (depth : Nat) : List Json → String
  | [] => ""
  | [item] => newline depth ++ prettyAt depth item
  | item :: items => newline depth ++ prettyAt depth item ++ "," ++ prettyItems depth items

def prettyFields (depth : Nat) : List (String × Json) → String
  | [] => ""
  | [(name, value)] => newline depth ++ quote name ++ ": " ++ prettyAt depth value
  | (name, value) :: fields =>
      newline depth ++ quote name ++ ": " ++ prettyAt depth value ++ "," ++ prettyFields depth fields

end

def pretty (json : Json) : String := json.prettyAt 0

end ScanPath.Json
