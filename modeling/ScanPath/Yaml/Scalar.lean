import ScanPath.Json.Reader
import ScanPath.Yaml.Cursor

/-!
# Scalars in a YAML text

The three ways of writing a scalar: plain, between quotes, and as an indented
block.  A line break inside a plain or quoted scalar counts as a space, and
further breaks after it as line feeds.
-/

namespace ScanPath.Yaml

inductive ScalarStyle where
  | plain
  | quoted
  | literal
  | folded
  deriving DecidableEq, Repr, Inhabited

/-- What was passed since the last word: blanks of one line, or line breaks, the first apart. -/
inductive Interval where
  | blanks (text : List Char)
  | breaks (first later : List Char)

namespace Interval

def isBroken : Interval → Bool
  | .blanks _ => false
  | .breaks _ _ => true

/-- A single line feed becomes a space; otherwise the first of several is dropped. -/
def folded (first later : List Char) : List Char :=
  if first = ['\n'] then (if later.isEmpty then [' '] else later) else first ++ later

def text : Interval → List Char
  | .blanks text => text
  | .breaks first later => folded first later

end Interval

def interval? (margin : Int) : Nat → Interval → Cursor → Option (Interval × Cursor)
  | 0, passed, cursor => some (passed, cursor)
  | fuel + 1, passed, cursor =>
      match cursor.peek with
      | none => some (passed, cursor)
      | some c =>
          if isBlank c then
            match passed with
            | .blanks text => interval? margin fuel (.blanks (text ++ [c])) (cursor.skip 1)
            | .breaks first later =>
                if c = '\t' ∧ (cursor.column : Int) < margin then none
                else interval? margin fuel (.breaks first later) (cursor.skip 1)
          else if isBreak c then
            let (feed, next) := cursor.lineBreak
            match passed with
            | .blanks _ => interval? margin fuel (.breaks feed []) next
            | .breaks first later => interval? margin fuel (.breaks first (later ++ feed)) next
          else some (passed, cursor)

/-! ## Plain scalars -/

def isFlowIndicator (c : Char) : Bool :=
  c == ',' || c == '[' || c == ']' || c == '\x7b' || c == '\x7d'

/-- The length of a plain word.  Inside a flow collection a colon must not touch an indicator. -/
def plainLength? (inFlow : Bool) : List Char → Option Nat
  | [] => some 0
  | c :: rest =>
      if isBlank c || isBreak c then some 0
      else if inFlow && c == ':' && (rest.head?.any fun next => isFlowIndicator next || next == '?')
        then none
      else if (c == ':' && isGap rest.head?) || (inFlow && isFlowIndicator c) then some 0
      else (plainLength? inFlow rest).map (· + 1)

/-- Words and the intervals between them, until something ends the scalar.  Also tells whether the
scalar was followed by a line break. -/
def plainWords? (inFlow : Bool) (margin : Int) :
    Nat → List Char → Interval → Cursor → Option (List Char × Bool × Cursor)
  | 0, _, _, _ => none
  | fuel + 1, written, passed, cursor =>
      if cursor.isDocumentIndicator || cursor.peek == some '#' then
        some (written, passed.isBroken, cursor)
      else
        match plainLength? inFlow cursor.rest with
        | none => none
        | some length =>
            let word := cursor.rest.take length
            let (written, passed) :=
              if word.isEmpty then (written, passed)
              else (written ++ passed.text ++ word, Interval.blanks [])
            let cursor := cursor.skip length
            match cursor.peek with
            | none => some (written, passed.isBroken, cursor)
            | some c =>
                if isBlank c || isBreak c then
                  match interval? margin cursor.rest.length passed cursor with
                  | none => none
                  | some (passed, cursor) =>
                      if !inFlow && (cursor.column : Int) < margin then
                        some (written, passed.isBroken, cursor)
                      else plainWords? inFlow margin fuel written passed cursor
                else some (written, passed.isBroken, cursor)

def plainScalar? (inFlow : Bool) (indent : Int) (cursor : Cursor) :
    Option (String × Bool × Cursor) :=
  (plainWords? inFlow (indent + 1) (cursor.rest.length + 1) [] (.blanks []) cursor).map
    fun (written, broken, cursor) => (String.ofList written, broken, cursor)

/-! ## Quoted scalars -/

def namedEscape? (c : Char) : Option Char :=
  match c with
  | '0' => some (Char.ofNat 0)
  | 'a' => some (Char.ofNat 7)
  | 'b' => some (Char.ofNat 8)
  | 't' => some '\t'
  | '\t' => some '\t'
  | 'n' => some '\n'
  | 'v' => some (Char.ofNat 11)
  | 'f' => some (Char.ofNat 12)
  | 'r' => some '\r'
  | 'e' => some (Char.ofNat 27)
  | ' ' => some ' '
  | '"' => some '"'
  | '/' => some '/'
  | '\\' => some '\\'
  | 'N' => some (Char.ofNat 0x85)
  | '_' => some (Char.ofNat 0xA0)
  | 'L' => some (Char.ofNat 0x2028)
  | 'P' => some (Char.ofNat 0x2029)
  | _ => none

def escapeWidth? (c : Char) : Option Nat :=
  match c with
  | 'x' => some 2
  | 'u' => some 4
  | 'U' => some 8
  | _ => none

def hexNumber? (digits : List Char) (width : Nat) : Option Nat :=
  if digits.length = width then
    (digits.mapM Json.hexValue?).map fun values => values.foldl (fun n digit => 16 * n + digit) 0
  else none

def escape? (rest : List Char) : Option (Char × Nat) := do
  let c ← rest.head?
  match namedEscape? c with
  | some meant => some (meant, 1)
  | none =>
      let width ← escapeWidth? c
      let code ← hexNumber? ((rest.drop 1).take width) width
      if (0xD800 ≤ code ∧ code ≤ 0xDFFF) ∨ 0x10FFFF < code then none
      else some (Char.ofNat code, width + 1)

inductive WordEnd where
  | quote
  | interval
  | escapedBreak

def quotedWord? (quote : Char) :
    Nat → List Char → Cursor → Option (List Char × WordEnd × Cursor)
  | 0, _, _ => none
  | fuel + 1, written, cursor =>
      match cursor.rest with
      | [] => none
      | c :: rest =>
          if isBlank c || isBreak c then some (written, .interval, cursor)
          else if quote == '\'' && c == '\'' && rest.head? == some '\'' then
            quotedWord? quote fuel (written ++ ['\'']) (cursor.skip 2)
          else if c == quote then some (written, .quote, cursor.skip 1)
          else if quote == '"' && c == '\\' then
            if rest.head?.any isBreak then
              some (written, .escapedBreak, (cursor.skip 1).skipBreak)
            else
              match escape? rest with
              | none => none
              | some (meant, width) =>
                  quotedWord? quote fuel (written ++ [meant]) (cursor.skip (width + 1))
          else quotedWord? quote fuel (written ++ [c]) (cursor.skip 1)

def quotedWords? (quote : Char) : Nat → List Char → Cursor → Option (List Char × Cursor)
  | 0, _, _ => none
  | fuel + 1, written, cursor =>
      if cursor.isDocumentIndicator then none
      else
        match quotedWord? quote (cursor.rest.length + 1) written cursor with
        | none => none
        | some (written, .quote, cursor) => some (written, cursor)
        | some (written, ending, cursor) =>
            let passed :=
              match ending with
              | .escapedBreak => Interval.breaks [] []
              | _ => Interval.blanks []
            match interval? 0 cursor.rest.length passed cursor with
            | none => none
            | some (passed, cursor) => quotedWords? quote fuel (written ++ passed.text) cursor

def quotedScalar? (cursor : Cursor) : Option (String × Cursor) := do
  let quote ← cursor.peek
  let (written, cursor) ← quotedWords? quote (cursor.rest.length + 1) [] (cursor.skip 1)
  return (String.ofList written, cursor)

/-! ## Block scalars -/

inductive Chomping where
  | strip
  | clip
  | keep
  deriving DecidableEq, Repr

def chomping? : Char → Option Chomping
  | '+' => some .keep
  | '-' => some .strip
  | _ => none

def blockHeader? (cursor : Cursor) : Option (Chomping × Nat × Cursor) :=
  let digit (cursor : Cursor) : Option (Nat × Cursor) :=
    match cursor.peek with
    | some c =>
        if c == '0' then none
        else if c.isDigit then some (c.toNat - '0'.toNat, cursor.skip 1)
        else some (0, cursor)
    | none => some (0, cursor)
  match cursor.peek.bind chomping? with
  | some chomping => (digit (cursor.skip 1)).map fun (step, cursor) => (chomping, step, cursor)
  | none =>
      match digit cursor with
      | none => none
      | some (step, cursor) =>
          match if step = 0 then none else cursor.peek.bind chomping? with
          | some chomping => some (chomping, step, cursor.skip 1)
          | none => some (.clip, step, cursor)

/-- Passes empty lines; `indent` is the indentation to pass, or `none` if it is still to be found
out.  Gives the breaks and the deepest column reached. -/
def emptyLines? (indent : Option Nat) :
    Nat → List Char → Nat → Cursor → Option (List Char × Nat × Cursor)
  | 0, breaks, deepest, cursor => some (breaks, deepest, cursor)
  | fuel + 1, breaks, deepest, cursor =>
      let spaces := (cursor.run (· == ' ')).length
      let cursor := cursor.skip (match indent with
        | none => spaces
        | some indent => min spaces (indent - cursor.column))
      let deepest := max deepest cursor.column
      match cursor.peek with
      | none => some (breaks, deepest, cursor)
      | some c =>
          if c == '\t' && (match indent with
            | none => true
            | some indent => cursor.column < indent) then none
          else if isBreak c then
            let (feed, next) := cursor.lineBreak
            emptyLines? indent fuel (breaks ++ feed) deepest next
          else some (breaks, deepest, cursor)

/-- The lines of a block.  `first` is the break that ended the last line and `later` the empty lines
after it; `blankBefore` tells whether the last line began with a blank. -/
def blockLines? (folds : Bool) (indent : Nat) :
    Nat → List Char → List Char → List Char → Bool → Cursor →
      Option (List Char × List Char × List Char × Cursor)
  | 0, _, _, _, _, _ => none
  | fuel + 1, written, first, later, blankBefore, cursor =>
      if cursor.column == indent && cursor.peek.isSome then
        let blankHere := cursor.peek.any isBlank
        let joint :=
          if folds && first == ['\n'] && !blankBefore && !blankHere then
            (if later.isEmpty then [' '] else [])
          else first
        let line := cursor.run fun c => !isBreak c
        let (feed, next) := (cursor.skip line.length).lineBreak
        match emptyLines? (some indent) (next.rest.length + 1) [] 0 next with
        | none => none
        | some (breaks, _, next) =>
            blockLines? folds indent fuel (written ++ joint ++ later ++ line) feed breaks blankHere next
      else some (written, first, later, cursor)

def blockScalar? (folds : Bool) (indent : Int) (cursor : Cursor) : Option (String × Cursor) := do
  let (chomping, step, cursor) ← blockHeader? (cursor.skip 1)
  let cursor ← cursor.finishLine?
  let given : Option Nat := if step = 0 then none else some ((max indent 0).toNat + step)
  let (breaks, deepest, cursor) ← emptyLines? given (cursor.rest.length + 1) [] 0 cursor
  let depth := given.getD (max deepest (max (indent + 1) 1).toNat)
  let (written, first, later, cursor) ←
    blockLines? folds depth (cursor.rest.length + 1) [] [] breaks false cursor
  let tail :=
    match chomping with
    | .strip => []
    | .clip => first
    | .keep => first ++ later
  return (String.ofList (written ++ tail), cursor)

end ScanPath.Yaml
