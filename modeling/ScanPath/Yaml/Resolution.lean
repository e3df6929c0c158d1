import ScanPath.Document
import ScanPath.Yaml.Node

/-!
# The meaning of scalars

A plain scalar without a tag may be null, a truth value or a number by its
spelling; every other scalar is text.  Whole numbers are written in decimal
without leading zeros, or after `0x`, `0o` or `0b` in another base.
-/

namespace ScanPath.Yaml

def isNullWord (text : String) : Bool :=
  text == "~" || text == "null" || text == "Null" || text == "NULL"

def truth? (text : String) : Option Bool :=
  if text == "true" || text == "True" || text == "TRUE" then some true
  else if text == "false" || text == "False" || text == "FALSE" then some false
  else none

/-- Leading zeros make text of what would be a decimal number. -/
def hasLeadingZero (text : List Char) : Bool :=
  let digits :=
    match text with
    | '-' :: rest | '+' :: rest => rest
    | rest => rest
  match digits with
  | '0' :: rest => !rest.isEmpty && rest.all Char.isDigit
  | _ => false

def digitsIn? (base : Nat) (digits : List Char) : Option Nat :=
  if digits.isEmpty then none
  else do
    let values ← digits.mapM Json.hexValue?
    if values.all (· < base) then some (values.foldl (fun n digit => base * n + digit) 0) else none

def magnitude? (text : List Char) : Option Nat :=
  match text with
  | '0' :: 'x' :: rest => digitsIn? 16 rest
  | '0' :: 'o' :: rest => digitsIn? 8 rest
  | '0' :: 'b' :: rest => digitsIn? 2 rest
  | rest => if hasLeadingZero rest then none else digitsIn? 10 rest

def wholeNumber? (text : List Char) : Option (Bool × Nat) :=
  match text with
  | '-' :: rest => (magnitude? rest).map fun n => (true, n)
  | '+' :: rest => (magnitude? rest).map fun n => (false, n)
  | rest => (magnitude? rest).map fun n => (false, n)

def fits (bits : Nat) (number : Bool × Nat) : Bool :=
  if number.1 then number.2 ≤ Nat.pow 2 (bits - 1) else number.2 < Nat.pow 2 bits

/-- Whole numbers of more than 64 bits have no place in a document, up to 128 bits. -/
def fitsDocument : Bool × Nat → Bool := fits 64

def isWide : Bool × Nat → Bool := fits 128

def floatNumber? (text : String) : Option Float :=
  let unsigned :=
    match text.toList with
    | '+' :: rest => rest
    | rest => rest
  let isSigned :=
    match unsigned with
    | '+' :: _ => true
    | '-' :: _ => text.toList.head? == some '+'
    | _ => false
  if isSigned then none
  else
    let body := String.ofList unsigned
    if body == ".inf" || body == ".Inf" || body == ".INF" then some (1.0 / 0.0)
    else if text == "-.inf" || text == "-.Inf" || text == "-.INF" then some (-1.0 / 0.0)
    else if text == ".nan" || text == ".NaN" || text == ".NAN" then some (0.0 / 0.0)
    else (Decimal.read? body).filter Float.isFinite

def spelled? (text : String) : Option Document :=
  if text.isEmpty || isNullWord text then some .null
  else
    match truth? text with
    | some value => some (.bool value)
    | none =>
        match (wholeNumber? text.toList).filter isWide with
        | some number => if fitsDocument number then some (.whole number.1 number.2) else none
        | none =>
            match if hasLeadingZero text.toList then none else floatNumber? text with
            | some x => some (.float x)
            | none => some (.text text)

/-- A scalar as part of a document.  The tags for null, truth values and numbers ask for such a
spelling, and a tag of the document's own stands for nothing that is known here. -/
def scalarDocument? (tag : Option Tag) (style : ScalarStyle) (text : String) : Option Document :=
  let untagged := if style = .plain then spelled? text else some (.text text)
  match tag with
  | none => untagged
  | some tag =>
      if tag.local?.isSome then none
      else if tag.isMarked then untagged
      else if tag == Tag.core "bool" then (truth? text).map .bool
      else if tag == Tag.core "int" then
        ((wholeNumber? text.toList).filter fitsDocument).map fun number => .whole number.1 number.2
      else if tag == Tag.core "float" then (floatNumber? text).map .float
      else if tag == Tag.core "null" then if isNullWord text then some .null else none
      else some (.text text)

end ScanPath.Yaml
