import ScanPath.Text.Unseen

/-!
# Quoted text

Text between quotes in which nothing is invisible: what has no visible form is
written by its code point.
-/

namespace ScanPath.Text

def codePointEscape (c : Char) : String :=
  "\\u\x7b" ++ String.ofList (Nat.toDigits 16 c.toNat) ++ "\x7d"

def escapeVisible (c : Char) : String :=
  if c = '"' then "\\\""
  else if c = '\\' then "\\\\"
  else if c = '\n' then "\\n"
  else if c = '\r' then "\\r"
  else if c = '\t' then "\\t"
  else if c.toNat = 0 then "\\0"
  else if isVisible c then c.toString
  else codePointEscape c

def quoted (text : String) : String :=
  text.toList.foldl (fun written c => written ++ escapeVisible c) "\"" ++ "\""

def quotedList (items : List String) : String :=
  "[" ++ String.intercalate ", " (items.map quoted) ++ "]"

end ScanPath.Text
