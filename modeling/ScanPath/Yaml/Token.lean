import ScanPath.Yaml.Scalar
import ScanPath.Yaml.Tag

/-!
# Tokens of a YAML text

Indentation is turned into brackets: a block collection has a token where it
starts and one where it ends.  The key of a mapping is only known to be one
when its colon is found, so the token of a key is put in before those read
since; a possible key is remembered until then, and has to end on the line on
which it starts.
-/

namespace ScanPath.Yaml

inductive Token where
  | streamEnd
  | version (major minor : Nat)
  | handle (name : List Char) (expansion : Tag)
  | documentStart
  | documentEnd
  | blockSequenceStart
  | blockMappingStart
  | blockEnd
  | flowSequenceStart
  | flowSequenceEnd
  | flowMappingStart
  | flowMappingEnd
  | blockEntry
  | flowEntry
  | key
  | value
  | alias (name : List Char)
  | anchor (name : List Char)
  | tag (handle : List Char) (suffix : Tag)
  | scalar (style : ScalarStyle) (text : String)
  deriving DecidableEq, Repr, Inhabited

/-- A place where a key may have started: `token` is the number of the token there.  A key that is
`required` cannot turn out to be something else. -/
structure PossibleKey where
  token : Nat
  required : Bool
  index : Nat
  line : Nat
  column : Nat
  deriving Repr

/-- `indents` holds the indentations around the current one, and `keys` the possible key of each
flow collection around the place, the innermost first. -/
structure Lexer where
  cursor : Cursor
  tokens : Array Token
  indent : Int
  indents : List Int
  keys : List (Option PossibleKey)
  keyAllowed : Bool

namespace Lexer

def start (text : List Char) : Lexer := ⟨.ofList text, #[], -1, [], [none], true⟩

def inFlow (lexer : Lexer) : Bool := 1 < lexer.keys.length

def push (lexer : Lexer) (token : Token) : Lexer :=
  { lexer with tokens := lexer.tokens.push token }

def accept (lexer : Lexer) (token : Token) (count : Nat) : Lexer :=
  { lexer with tokens := lexer.tokens.push token, cursor := lexer.cursor.skip count }

def allowKey (lexer : Lexer) (allowed : Bool) : Lexer := { lexer with keyAllowed := allowed }

/-- A key has to be on one line and to have no more bytes than this. -/
def keyLimit : Nat := 1024

def expireKeys? (lexer : Lexer) : Option Lexer :=
  let isStale (key : PossibleKey) : Bool :=
    key.line < lexer.cursor.line || key.index + keyLimit < lexer.cursor.index
  if lexer.keys.any fun key => key.any fun key => isStale key && key.required then none
  else some { lexer with keys := lexer.keys.map fun key => key.filter fun key => !isStale key }

def dropKey? (lexer : Lexer) : Option Lexer :=
  match lexer.keys with
  | some key :: keys => if key.required then none else some { lexer with keys := none :: keys }
  | _ => some lexer

def noteKey? (lexer : Lexer) : Option Lexer :=
  if lexer.keyAllowed then do
    let required := !lexer.inFlow && lexer.indent == lexer.cursor.column
    let lexer ← lexer.dropKey?
    let key : PossibleKey := ⟨lexer.tokens.size, required, lexer.cursor.index, lexer.cursor.line,
      lexer.cursor.column⟩
    return { lexer with keys := some key :: lexer.keys.drop 1 }
  else some lexer

def indentTo (lexer : Lexer) (column : Nat) (token : Token) (place : Nat) : Lexer :=
  if !lexer.inFlow && lexer.indent < column then
    { lexer with
      indents := lexer.indent :: lexer.indents
      indent := column
      tokens := lexer.tokens.insertIdxIfInBounds place token }
  else lexer

def closing (column : Int) : Int → List Int → Nat × Int × List Int
  | indent, outer :: indents =>
      if column < indent then
        let (count, indent, indents) := closing column outer indents
        (count + 1, indent, indents)
      else (0, indent, outer :: indents)
  | indent, [] => (0, indent, [])

def dedentTo (lexer : Lexer) (column : Int) : Lexer :=
  if lexer.inFlow then lexer
  else
    let (count, indent, indents) := closing column lexer.indent lexer.indents
    { lexer with indent, indents, tokens := lexer.tokens ++ Array.replicate count .blockEnd }

/-! ## White space -/

/-- Passes blanks, comments and empty lines.  A tab is no white space where a key may start.  A byte
order mark at the start of a line takes up a column. -/
def skipSpace : Nat → Lexer → Lexer
  | 0, lexer => lexer
  | fuel + 1, lexer =>
      let cursor := lexer.cursor
      let cursor :=
        if cursor.column == 0 && cursor.peek.any isMark then cursor.skip 1 else cursor
      let cursor := cursor.skipRun fun c =>
        c == ' ' || (c == '\t' && (lexer.inFlow || !lexer.keyAllowed))
      let cursor := cursor.skipComment
      if cursor.peek.any isBreak then
        skipSpace fuel { lexer with
          cursor := cursor.skipBreak
          keyAllowed := lexer.keyAllowed || !lexer.inFlow }
      else { lexer with cursor }

def number? (cursor : Cursor) : Option (Nat × Cursor) :=
  let digits := cursor.run Char.isDigit
  if digits.isEmpty || 9 < digits.length then none
  else some (Decimal.ofDigits digits, cursor.skip digits.length)

def handle? (inDirective : Bool) (cursor : Cursor) : Option (List Char × Cursor) :=
  if cursor.peek == some '!' then
    let name := (cursor.skip 1).run isWord
    let cursor := cursor.skip (name.length + 1)
    if cursor.peek == some '!' then some ('!' :: name ++ ['!'], cursor.skip 1)
    else if inDirective && !name.isEmpty then none
    else some ('!' :: name, cursor)
  else none

def tagBytes? (verbatim : Bool) (cursor : Cursor) : Option (Tag × Cursor) := do
  let text := cursor.run (Tag.isTagChar verbatim)
  let bytes ← Tag.unescape? (text.length + 1) text
  return (bytes, cursor.skip text.length)

def directive? (cursor : Cursor) : Option (Token × Cursor) := do
  let name := (cursor.skip 1).run isWord
  let cursor := cursor.skip (name.length + 1)
  if name.isEmpty || !isGap cursor.peek then none
  else if name == "YAML".toList then do
    let (major, cursor) ← number? (cursor.skipRun isBlank)
    if cursor.peek != some '.' then none
    else
      let (minor, cursor) ← number? (cursor.skip 1)
      let cursor ← cursor.finishLine?
      return (.version major minor, cursor)
  else if name == "TAG".toList then do
    let (handle, cursor) ← handle? true (cursor.skipRun isBlank)
    if !cursor.peek.any isBlank then none
    else
      let (expansion, cursor) ← tagBytes? true (cursor.skipRun isBlank)
      if expansion.isEmpty || !isGap cursor.peek then none
      else
        let cursor ← cursor.finishLine?
        return (.handle handle expansion.untilZero, cursor)
  else none

def name? (cursor : Cursor) : Option (List Char × Cursor) :=
  let name := cursor.run isWord
  let cursor := cursor.skip name.length
  if name.isEmpty then none
  else if isGap cursor.peek || cursor.peek.any (fun c => "?:,]\x7d%@\x60".toList.contains c) then
    some (name, cursor)
  else none

/-- A tag as handle and suffix; a tag in full has an empty handle, and so has the lone mark. -/
def tag? (inFlow : Bool) (cursor : Cursor) : Option (Token × Cursor) := do
  let (handle, suffix, cursor) ←
    if cursor.peekAt 1 == some '<' then do
      let (suffix, cursor) ← tagBytes? true (cursor.skip 2)
      if suffix.isEmpty || cursor.peek != some '>' then none
      else some ([], suffix.untilZero, cursor.skip 1)
    else do
      let (handle, cursor) ← handle? false cursor
      let (rest, cursor) ← tagBytes? false cursor
      if 1 < handle.length && handle.getLast? == some '!' then
        if rest.isEmpty then none else some (handle, rest.untilZero, cursor)
      else
        let suffix := (Tag.ofChars (handle.drop 1) ++ rest).untilZero
        some (if suffix.isEmpty then ([], Tag.ofChars ['!'], cursor) else (['!'], suffix, cursor))
  if isGap cursor.peek || (inFlow && cursor.peek == some ',') then
    return (.tag handle suffix, cursor)
  else none

/-! ## Tokens -/

def content? (lexer : Lexer) (token? : Cursor → Option (Token × Cursor)) : Option Lexer := do
  let lexer ← lexer.noteKey?
  let (token, cursor) ← token? lexer.cursor
  return { lexer with tokens := lexer.tokens.push token, cursor, keyAllowed := false }

def flowStart? (lexer : Lexer) (token : Token) : Option Lexer := do
  let lexer ← lexer.noteKey?
  return ({ lexer with keys := none :: lexer.keys, keyAllowed := true }).accept token 1

def flowEnd? (lexer : Lexer) (token : Token) : Option Lexer := do
  let lexer ← lexer.dropKey?
  let keys := if lexer.inFlow then lexer.keys.drop 1 else lexer.keys
  return ({ lexer with keys, keyAllowed := false }).accept token 1

def blockMark? (lexer : Lexer) (token opening : Token) (keyAfter : Bool) : Option Lexer := do
  if !lexer.inFlow && !lexer.keyAllowed then none
  else
    let lexer ← (lexer.indentTo lexer.cursor.column opening lexer.tokens.size).dropKey?
    return (lexer.allowKey keyAfter).accept token 1

def value? (lexer : Lexer) : Option Lexer :=
  match lexer.keys with
  | some key :: keys =>
      let lexer := { lexer with
        tokens := lexer.tokens.insertIdxIfInBounds key.token .key
        keys := none :: keys
        keyAllowed := false }
      some ((lexer.indentTo key.column .blockMappingStart key.token).accept .value 1)
  | _ =>
      if !lexer.inFlow && !lexer.keyAllowed then none
      else
        let lexer := lexer.indentTo lexer.cursor.column .blockMappingStart lexer.tokens.size
        some ((lexer.allowKey (!lexer.inFlow)).accept .value 1)

def outermost? (lexer : Lexer) (token? : Cursor → Option (Token × Cursor)) : Option Lexer := do
  let lexer ← (lexer.dedentTo (-1)).dropKey?
  let (token, cursor) ← token? lexer.cursor
  return { lexer with tokens := lexer.tokens.push token, cursor, keyAllowed := false }

def startsPlain (inFlow : Bool) (c : Char) (next : Option Char) : Bool :=
  !(isBlank c || "-?:,[]\x7b\x7d#&*!|>'\"%@\x60".toList.contains c)
    || (c == '-' && !next.any isBlank)
    || (!inFlow && (c == '?' || c == ':') && !isGap next)

def plain? (lexer : Lexer) : Option Lexer := do
  let lexer ← lexer.noteKey?
  let (text, broken, cursor) ← plainScalar? lexer.inFlow lexer.indent lexer.cursor
  return { lexer with
    tokens := lexer.tokens.push (.scalar .plain text), cursor, keyAllowed := broken }

def block? (lexer : Lexer) (style : ScalarStyle) : Option Lexer := do
  let lexer ← lexer.dropKey?
  let (text, cursor) ← blockScalar? (style == .folded) lexer.indent lexer.cursor
  return { lexer with
    tokens := lexer.tokens.push (.scalar style text), cursor, keyAllowed := true }

def token? (lexer : Lexer) (c : Char) : Option Lexer :=
  let cursor := lexer.cursor
  let next := cursor.peekAt 1
  if cursor.column == 0 && c == '%' then lexer.outermost? directive?
  else if cursor.isIndicator '-' then
    lexer.outermost? fun cursor => some (.documentStart, cursor.skip 3)
  else if cursor.isIndicator '.' then
    lexer.outermost? fun cursor => some (.documentEnd, cursor.skip 3)
  else if c == '[' then lexer.flowStart? .flowSequenceStart
  else if c == '\x7b' then lexer.flowStart? .flowMappingStart
  else if c == ']' then lexer.flowEnd? .flowSequenceEnd
  else if c == '\x7d' then lexer.flowEnd? .flowMappingEnd
  else if c == ',' then do
    let lexer ← lexer.dropKey?
    return (lexer.allowKey true).accept .flowEntry 1
  else if c == '-' && isGap next then lexer.blockMark? .blockEntry .blockSequenceStart true
  else if c == '?' && (lexer.inFlow || isGap next) then
    lexer.blockMark? .key .blockMappingStart (!lexer.inFlow)
  else if c == ':' && (lexer.inFlow || isGap next) then lexer.value?
  else if c == '*' then lexer.content? fun cursor =>
    (name? (cursor.skip 1)).map fun (name, cursor) => (.alias name, cursor)
  else if c == '&' then lexer.content? fun cursor =>
    (name? (cursor.skip 1)).map fun (name, cursor) => (.anchor name, cursor)
  else if c == '!' then lexer.content? (tag? lexer.inFlow)
  else if c == '|' && !lexer.inFlow then lexer.block? .literal
  else if c == '>' && !lexer.inFlow then lexer.block? .folded
  else if c == '\'' || c == '"' then lexer.content? fun cursor =>
    (quotedScalar? cursor).map fun (text, cursor) => (.scalar .quoted text, cursor)
  else if startsPlain lexer.inFlow c next then lexer.plain?
  else none

def finish? (lexer : Lexer) : Option Lexer := do
  let lexer ← (lexer.dedentTo (-1)).dropKey?
  return lexer.push .streamEnd

def run? : Nat → Lexer → Option Lexer
  | 0, _ => none
  | fuel + 1, lexer => do
      let lexer ← (lexer.skipSpace (lexer.cursor.rest.length + 1)).expireKeys?
      let lexer := lexer.dedentTo lexer.cursor.column
      match lexer.cursor.peek with
      | none => lexer.finish?
      | some c => run? fuel (← lexer.token? c)

end Lexer

def tokens? (text : String) : Option (Array Token) :=
  let chars := text.toList
  if chars.all isAllowed then
    ((Lexer.start chars).run? (chars.length + 1)).map Lexer.tokens
  else none

end ScanPath.Yaml
