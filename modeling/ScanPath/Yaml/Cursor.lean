/-!
# Places in a YAML text

A cursor is the unread rest of a text with the number of bytes read so far, the
line and the column.  Columns count characters.  A line ends with a line feed,
a carriage return or both, or with one of the Unicode characters U+0085, U+2028
and U+2029.
-/

namespace ScanPath.Yaml

def isBlank (c : Char) : Bool := c == ' ' || c == '\t'

def isBreak (c : Char) : Bool :=
  c == '\n' || c == '\r' || c.toNat == 0x85 || c.toNat == 0x2028 || c.toNat == 0x2029

def isGap : Option Char → Bool
  | none => true
  | some c => isBlank c || isBreak c

def isWord (c : Char) : Bool := c.isAlphanum || c == '_' || c == '-'

def isAllowed (c : Char) : Bool :=
  let code := c.toNat
  code == 9 || code == 10 || code == 13 || (0x20 ≤ code && code ≤ 0x7E) || code == 0x85
    || (0xA0 ≤ code && code ≤ 0xFFFD) || 0x10000 ≤ code

def isMark (c : Char) : Bool := c.toNat == 0xFEFF

def byteCount (text : List Char) : Nat := text.foldl (fun count c => count + c.utf8Size) 0

structure Cursor where
  rest : List Char
  index : Nat
  line : Nat
  column : Nat
  deriving Inhabited

namespace Cursor

def ofList (text : List Char) : Cursor := ⟨text, 0, 0, 0⟩

def peek (cursor : Cursor) : Option Char := cursor.rest.head?

def peekAt (cursor : Cursor) (offset : Nat) : Option Char := cursor.rest[offset]?

def skip (cursor : Cursor) (count : Nat) : Cursor :=
  { cursor with
    rest := cursor.rest.drop count
    index := cursor.index + byteCount (cursor.rest.take count)
    column := cursor.column + count }

def run (cursor : Cursor) (belongs : Char → Bool) : List Char := cursor.rest.takeWhile belongs

def skipRun (cursor : Cursor) (belongs : Char → Bool) : Cursor :=
  cursor.skip (cursor.run belongs).length

/-- The break under the cursor as it counts in a scalar, and the start of the next line.  The
separators U+2028 and U+2029 stand for themselves, any other break for a line feed. -/
def lineBreak (cursor : Cursor) : List Char × Cursor :=
  let onward (passed rest : List Char) : Cursor :=
    ⟨rest, cursor.index + byteCount passed, cursor.line + 1, 0⟩
  match cursor.rest with
  | '\r' :: '\n' :: rest => (['\n'], onward ['\r', '\n'] rest)
  | c :: rest =>
      if c.toNat == 0x2028 || c.toNat == 0x2029 then ([c], onward [c] rest)
      else if isBreak c then (['\n'], onward [c] rest)
      else ([], cursor)
  | [] => ([], cursor)

def skipBreak (cursor : Cursor) : Cursor := cursor.lineBreak.2

def skipComment (cursor : Cursor) : Cursor :=
  if cursor.peek == some '#' then cursor.skipRun fun c => !isBreak c else cursor

def isIndicator (cursor : Cursor) (c : Char) : Bool :=
  cursor.column == 0 && cursor.rest.take 3 == [c, c, c] && isGap (cursor.peekAt 3)

def isDocumentIndicator (cursor : Cursor) : Bool := cursor.isIndicator '-' || cursor.isIndicator '.'

def finishLine? (cursor : Cursor) : Option Cursor :=
  let cursor := (cursor.skipRun isBlank).skipComment
  match cursor.peek with
  | none => some cursor
  | some c => if isBreak c then some cursor.skipBreak else none

end Cursor

end ScanPath.Yaml
