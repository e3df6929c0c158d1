import ScanPath.Decimal.Reading
import ScanPath.Json.Basic

/-!
# Documents

A document is a value that has been read but not yet understood: it may stand
for a leaf, a region or a whole scan.  The functions here ask a document for
something definite and answer `none` when it is something else.  Nothing is
converted, except that a whole number will do where a float is wanted.  A whole
number keeps its minus sign: minus zero is a count, but it is no place in a
list of fields.
-/

namespace ScanPath

inductive Document where
  | null
  | bool (value : Bool)
  | whole (negated : Bool) (magnitude : Nat)
  | float (value : Float)
  | text (value : String)
  | list (items : List Document)
  | map (entries : List (Document × Document))
  deriving Inhabited

/-- Where a document stands: outermost, or inside an entry whose kind had to be found out first.
The outside is lenient about null, the inside about the form of records. -/
inductive Document.Level where
  | outer
  | inner
  deriving DecidableEq, Repr

namespace Document

def text? : Document → Option String
  | .text value => some value
  | _ => none

def bool? : Document → Option Bool
  | .bool value => some value
  | _ => none

def ofInt (value : Int) : Document := .whole (decide (value < 0)) value.natAbs

def count? : Document → Option Nat
  | .whole negated magnitude => if negated ∧ magnitude ≠ 0 then none else some magnitude
  | _ => none

def float? : Document → Option Float
  | .whole negated magnitude =>
      some (Decimal.nearest (negated && magnitude != 0) magnitude 0)
  | .float value => some value
  | _ => none

def orNull? {α : Type} (item? : Document → Option α) : Document → Option (Option α)
  | .null => some none
  | document => (item? document).map some

def listOf? {α : Type} (level : Level) (item? : Document → Option α) : Document → Option (List α)
  | .list items => items.mapM item?
  | .null => if level = .outer then some [] else none
  | _ => none

def oneOrMany? {α : Type} (item? : Document → Option α) (document : Document) : Option (List α) :=
  match item? document with
  | some item => some [item]
  | none => document.listOf? .inner item?

def pair? : Document → Option (Float × Float)
  | .list [first, second] => do
      let first ← first.float?
      let second ← second.float?
      return (first, second)
  | _ => none

/-- A table under text keys, the last entry of a key winning.  On the outside null is an empty
table. -/
def tableOf? {α : Type} (level : Level) (item? : Document → Option α) : Document → Option (Keyed α)
  | .map entries => do
      let entries ← entries.mapM fun (key, value) => do
        let key ← key.text?
        let value ← item? value
        return (key, value)
      return Keyed.ofList entries
  | .null => if level = .outer then some ∅ else none
  | _ => none

abbrev Record := List (String × Document)

/-- The field that a key stands for: its name or, inside, its place.  `some none` is a field that
nobody asks for. -/
def fieldOf? (level : Level) (names : List String) (key : Document) : Option (Option String) :=
  match key with
  | .text name => some (if names.contains name then some name else none)
  | .whole false place => if level = .inner then some names[place]? else none
  | _ => none

def collect? (level : Level) (names : List String) :
    Record → List (Document × Document) → Option Record
  | record, [] => some record
  | record, (key, value) :: entries => do
      match ← fieldOf? level names key with
      | none => collect? level names record entries
      | some name =>
          if (record.lookup name).isSome then none
          else collect? level names ((name, value) :: record) entries

/-- A record with the given field names.  Inside, its fields may also be listed in their order. -/
def record? (level : Level) (names : List String) : Document → Option Record
  | .map entries => collect? level names [] entries
  | .list items =>
      if level = .inner ∧ items.length ≤ names.length then some (names.zip items) else none
  | .null => if level = .outer then some [] else none
  | _ => none

namespace Record

def require? {α : Type} (record : Record) (name : String) (item? : Document → Option α) :
    Option α :=
  (record.lookup name).bind item?

def default? {α : Type} (record : Record) (name : String) (value : α)
    (item? : Document → Option α) : Option α :=
  match record.lookup name with
  | none => some value
  | some document => item? document

end Record

def nameOf? (level : Level) (names : List String) : Document → Option String
  | .text name => if names.contains name then some name else none
  | .whole false place => if level = .inner then names[place]? else none
  | _ => none

/-- A choice that carries nothing; inside it may be written as a table from the name to null. -/
def choice? (level : Level) (names : List String) : Document → Option String
  | .text name => if names.contains name then some name else none
  | .map [(key, .null)] => if level = .inner then key.nameOf? .inner names else none
  | _ => none

def splitTag? (tag : String) :
    List (Document × Document) → Option (Document × List (Document × Document))
  | [] => none
  | (key, value) :: entries =>
      if key.text? = some tag then
        if entries.any fun entry => entry.1.text? = some tag then none else some (value, entries)
      else (splitTag? tag entries).map fun (kind, rest) => (kind, (key, value) :: rest)

def tagged? (level : Level) (tag : String) (kinds : List String) :
    Document → Option (String × Document)
  | .map entries => do
      let (kind, rest) ← splitTag? tag entries
      return (← kind.nameOf? level kinds, .map rest)
  | .list (kind :: rest) => do
      return (← kind.nameOf? level kinds, .list rest)
  | _ => none

mutual

def depth : Document → Nat
  | .list items => depthOfItems items + 1
  | .map entries => depthOfEntries entries + 1
  | _ => 0

def depthOfItems : List Document → Nat
  | [] => 0
  | item :: items => max (depth item) (depthOfItems items)

def depthOfEntries : List (Document × Document) → Nat
  | [] => 0
  | (key, value) :: entries => max (max (depth key) (depth value)) (depthOfEntries entries)

end

mutual

def ofJson : Json → Document
  | .null => .null
  | .bool value => .bool value
  | .int value => .ofInt value
  | .float value => .float value
  | .string value => .text value
  | .array items => .list (ofItems items)
  | .object fields => .map (ofFields fields)

def ofItems : List Json → List Document
  | [] => []
  | item :: items => ofJson item :: ofItems items

def ofFields : List (String × Json) → List (Document × Document)
  | [] => []
  | (name, value) :: fields => (.text name, ofJson value) :: ofFields fields

end

end Document

end ScanPath
