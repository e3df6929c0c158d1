import ScanPath.Json.Reader
import ScanPath.Yaml.Cursor

/-!
# Tags of a YAML text

A tag is a string of bytes: a percent sign with two hexadecimal digits stands
for any byte, as long as the bytes look like characters in UTF-8, so that a tag
may be no text at all.  A zero byte ends the tag.
-/

namespace ScanPath.Yaml

abbrev Tag := List UInt8

namespace Tag

def isTagChar (verbatim : Bool) (c : Char) : Bool :=
  isWord c || ";/?:@&=+$.%!~*'()".toList.contains c || (verbatim && ",[]".toList.contains c)

def escapedByte? : List Char → Option (UInt8 × List Char)
  | '%' :: high :: low :: rest => do
      let high ← Json.hexValue? high
      let low ← Json.hexValue? low
      return ((16 * high + low).toUInt8, rest)
  | _ => none

def escapedTail? : Nat → List Char → Option (List UInt8 × List Char)
  | 0, rest => some ([], rest)
  | count + 1, rest => do
      let (byte, rest) ← escapedByte? rest
      if byte / 64 == 2 then
        let (bytes, rest) ← escapedTail? count rest
        return (byte :: bytes, rest)
      else none

def tailLength? (byte : UInt8) : Option Nat :=
  if byte < 0x80 then some 0
  else if byte / 32 == 6 then some 1
  else if byte / 16 == 14 then some 2
  else if byte / 8 == 30 then some 3
  else none

def escapedChar? (rest : List Char) : Option (List UInt8 × List Char) := do
  let (byte, rest) ← escapedByte? rest
  let (bytes, rest) ← escapedTail? (← tailLength? byte) rest
  return (byte :: bytes, rest)

def unescape? : Nat → List Char → Option Tag
  | 0, _ => none
  | _ + 1, [] => some []
  | fuel + 1, '%' :: rest => do
      let (bytes, rest) ← escapedChar? ('%' :: rest)
      return bytes ++ (← unescape? fuel rest)
  | fuel + 1, c :: rest => do return c.toUInt8 :: (← unescape? fuel rest)

def ofChars (text : List Char) : Tag := text.map Char.toUInt8

def untilZero (tag : Tag) : Tag := tag.takeWhile (· != 0)

def core (name : String) : Tag := ofChars ("tag:yaml.org,2002:" ++ name).toList

def isMarked (tag : Tag) : Bool := tag.head? == some '!'.toUInt8

/-- The name of a tag of the document's own: what follows its exclamation mark, or the mark if
nothing follows.  Bytes that are no text name nothing. -/
def local? : Tag → Option String
  | mark :: name =>
      if mark == '!'.toUInt8 then
        String.fromUTF8? ⟨(if name.isEmpty then [mark] else name).toArray⟩
      else none
  | [] => none

end Tag

end ScanPath.Yaml
