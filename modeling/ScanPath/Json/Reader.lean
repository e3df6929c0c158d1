import ScanPath.Decimal.Reading
import ScanPath.Json.Basic

/-!
# Reading JSON text

A number without point and exponent is an integer when it fits in 64 bits,
signed or unsigned; every other number is a float, and so is `-0`.  Of several
fields of one name in an object the last one counts.
-/

namespace ScanPath.Json

def skipSpace : List Char → List Char
  | ' ' :: rest | '\n' :: rest | '\t' :: rest | '\r' :: rest => skipSpace rest
  | rest => rest

def hexValue? (c : Char) : Option Nat :=
  if c.isDigit then some (c.toNat - '0'.toNat)
  else if 'a' ≤ c ∧ c ≤ 'f' then some (c.toNat - 'a'.toNat + 10)
  else if 'A' ≤ c ∧ c ≤ 'F' then some (c.toNat - 'A'.toNat + 10)
  else none

def unit? : List Char → Option (Nat × List Char)
  | a :: b :: c :: d :: rest => do
      let a ← hexValue? a
      let b ← hexValue? b
      let c ← hexValue? c
      let d ← hexValue? d
      some (((a * 16 + b) * 16 + c) * 16 + d, rest)
  | _ => none

def codePoint? (input : List Char) : Option (Char × List Char) := do
  let (high, rest) ← unit? input
  if 0xD800 ≤ high ∧ high < 0xDC00 then
    match rest with
    | '\\' :: 'u' :: rest =>
        let (low, rest) ← unit? rest
        if 0xDC00 ≤ low ∧ low < 0xE000 then
          some (Char.ofNat (0x10000 + (high - 0xD800) * 1024 + (low - 0xDC00)), rest)
        else none
    | _ => none
  else if 0xDC00 ≤ high ∧ high < 0xE000 then none
  else some (Char.ofNat high, rest)

/-- The rest of a string after its opening quote; `written` holds what was read, last first. -/
def readString : Nat → List Char → List Char → Option (String × List Char)
  | 0, _, _ => none
  | fuel + 1, written, input =>
      match input with
      | [] => none
      | '"' :: rest => some (String.ofList written.reverse, rest)
      | '\\' :: c :: rest =>
          if c = 'u' then
            match codePoint? rest with
            | some (c, rest) => readString fuel (c :: written) rest
            | none => none
          else
            let plain : Option Char :=
              if c = '"' ∨ c = '\\' ∨ c = '/' then some c
              else if c = 'b' then some (Char.ofNat 8)
              else if c = 'f' then some (Char.ofNat 12)
              else if c = 'n' then some '\n'
              else if c = 'r' then some '\r'
              else if c = 't' then some '\t'
              else none
            match plain with
            | some c => readString fuel (c :: written) rest
            | none => none
      | c :: rest => if c.toNat < 32 then none else readString fuel (c :: written) rest

def isNumberChar (c : Char) : Bool :=
  c.isDigit || c == '-' || c == '+' || c == '.' || c == 'e' || c == 'E'

def number? (word : String) : Option Json :=
  if word.toList.any fun c => c == '.' || c == 'e' || c == 'E' then (Decimal.read? word).map .float
  else do
    let (negative, digits) :=
      match word.toList with
      | '-' :: digits => (true, digits)
      | digits => (false, digits)
    if digits.isEmpty || !digits.all Char.isDigit then none
    else
      let size := Decimal.ofDigits digits
      if negative && size == 0 then some (.float (-0.0))
      else if negative && size ≤ Nat.pow 2 63 then some (.int (-(size : Int)))
      else if !negative && size < Nat.pow 2 64 then some (.int size)
      else some (.float (Decimal.nearest negative size 0))

mutual

def readValue : Nat → List Char → Option (Json × List Char)
  | 0, _ => none
  | fuel + 1, input =>
      match skipSpace input with
      | 'n' :: 'u' :: 'l' :: 'l' :: rest => some (.null, rest)
      | 't' :: 'r' :: 'u' :: 'e' :: rest => some (.bool true, rest)
      | 'f' :: 'a' :: 'l' :: 's' :: 'e' :: rest => some (.bool false, rest)
      | '"' :: rest => (readString fuel [] rest).map fun (value, rest) => (.string value, rest)
      | '[' :: rest =>
          match skipSpace rest with
          | ']' :: rest => some (.array [], rest)
          | rest => (readItems fuel rest).map fun (items, rest) => (.array items, rest)
      | '\x7b' :: rest =>
          match skipSpace rest with
          | '\x7d' :: rest => some (.object [], rest)
          | rest =>
              (readFields fuel rest).map fun (fields, rest) => (.object (orderedFields fields), rest)
      | rest =>
          (number? (String.ofList (rest.takeWhile isNumberChar))).map fun value =>
            (value, rest.dropWhile isNumberChar)

def readItems : Nat → List Char → Option (List Json × List Char)
  | 0, _ => none
  | fuel + 1, input => do
      let (item, rest) ← readValue fuel input
      match skipSpace rest with
      | ',' :: rest =>
          let (items, rest) ← readItems fuel rest
          some (item :: items, rest)
      | ']' :: rest => some ([item], rest)
      | _ => none

def readFields : Nat → List Char → Option (List (String × Json) × List Char)
  | 0, _ => none
  | fuel + 1, input =>
      match skipSpace input with
      | '"' :: rest => do
          let (name, rest) ← readString fuel [] rest
          match skipSpace rest with
          | ':' :: rest =>
              let (value, rest) ← readValue fuel rest
              match skipSpace rest with
              | ',' :: rest =>
                  let (fields, rest) ← readFields fuel rest
                  some ((name, value) :: fields, rest)
              | '\x7d' :: rest => some ([(name, value)], rest)
              | _ => none
          | _ => none
      | _ => none

end

def parse? (input : String) : Option Json := do
  let chars := input.toList
  let (value, rest) ← readValue (2 * chars.length + 2) chars
  if (skipSpace rest).isEmpty then some value else none

end ScanPath.Json
