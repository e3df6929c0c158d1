import ScanPath.Yaml.Token

/-!
# Nodes of a YAML document

The tokens of a document make a tree of scalars, sequences and mappings.  A
node may carry a tag and an anchor, and an alias stands for an anchored node.
Anchors are numbered in the order of the text by the count of different names
that were given before.
-/

namespace ScanPath.Yaml

inductive Node where
  | scalar (anchor : Option Nat) (tag : Option Tag) (style : ScalarStyle) (text : String)
  | sequence (anchor : Option Nat) (tag : Option Tag) (items : List Node)
  | mapping (anchor : Option Nat) (tag : Option Tag) (entries : List (Node × Node))
  | alias (anchor : Nat)
  deriving Inhabited

namespace Node

def absent : Node := .scalar none none .plain ""

def anchor? : Node → Option Nat
  | .scalar anchor _ _ _ | .sequence anchor _ _ | .mapping anchor _ _ => anchor
  | .alias _ => none

mutual

def anchored : Node → List (Nat × Node)
  | .scalar anchor tag style text =>
      (anchor.map fun anchor => (anchor, Node.scalar (some anchor) tag style text)).toList
  | .sequence anchor tag items =>
      (anchor.map fun anchor => (anchor, Node.sequence (some anchor) tag items)).toList
        ++ anchoredItems items
  | .mapping anchor tag entries =>
      (anchor.map fun anchor => (anchor, Node.mapping (some anchor) tag entries)).toList
        ++ anchoredEntries entries
  | .alias _ => []

def anchoredItems : List Node → List (Nat × Node)
  | [] => []
  | item :: items => anchored item ++ anchoredItems items

def anchoredEntries : List (Node × Node) → List (Nat × Node)
  | [] => []
  | (key, value) :: entries => anchored key ++ anchored value ++ anchoredEntries entries

end

mutual

def weight : Node → Nat
  | .scalar .. | .alias _ => 1
  | .sequence _ _ items => 2 + weightOfItems items
  | .mapping _ _ entries => 2 + weightOfEntries entries

def weightOfItems : List Node → Nat
  | [] => 0
  | item :: items => weight item + weightOfItems items

def weightOfEntries : List (Node × Node) → Nat
  | [] => 0
  | (key, value) :: entries => weight key + weight value + weightOfEntries entries

end

end Node

/-! ## Grammar -/

structure Grammar where
  tokens : List Token
  handles : List (List Char × Tag)
  anchors : List (List Char × Nat)

namespace Grammar

def next (state : Grammar) : Token := state.tokens.headD .streamEnd

def drop (state : Grammar) : Grammar := { state with tokens := state.tokens.drop 1 }

structure Properties where
  anchor : Option (List Char)
  tag : Option (List Char × Tag)

def properties (state : Grammar) : Properties × Grammar :=
  match state.tokens with
  | .anchor name :: .tag handle suffix :: rest =>
      (⟨some name, some (handle, suffix)⟩, { state with tokens := rest })
  | .tag handle suffix :: .anchor name :: rest =>
      (⟨some name, some (handle, suffix)⟩, { state with tokens := rest })
  | .anchor name :: rest => (⟨some name, none⟩, { state with tokens := rest })
  | .tag handle suffix :: rest => (⟨none, some (handle, suffix)⟩, { state with tokens := rest })
  | _ => (⟨none, none⟩, state)

def fullTag? (state : Grammar) : Option (List Char × Tag) → Option (Option Tag)
  | none => some none
  | some ([], suffix) => some (some suffix)
  | some (handle, suffix) =>
      (state.handles.lookup handle).map fun expansion => some (expansion ++ suffix)

/-- Gives a name its number; a name that is given again gets a new one. -/
def enter (state : Grammar) (name : Option (List Char)) : Option Nat × Grammar :=
  match name with
  | none => (none, state)
  | some name =>
      let number := state.anchors.length
      let others := state.anchors.filter fun entry => entry.1 != name
      (some number, { state with anchors := (name, number) :: others })

inductive Place where
  | flow
  | block
  | entry
  deriving DecidableEq, Repr

mutual

/-- A node.  A sequence whose entries are not indented may stand as the key or value of a block
mapping only. -/
def node? : Nat → Place → Grammar → Option (Node × Grammar)
  | 0, _, _ => none
  | fuel + 1, place, state =>
      match state.next with
      | .alias name => do
          let anchor ← state.anchors.lookup name
          return (.alias anchor, state.drop)
      | _ => do
          let (properties, state) := state.properties
          let tag ← state.fullTag? properties.tag
          let (anchor, state) := state.enter properties.anchor
          match state.next with
          | .blockEntry =>
              if place = .entry then do
                let (items, state) ← bareItems? fuel state
                return (.sequence anchor tag items, state)
              else emptyNode? properties anchor tag state
          | .scalar style text =>
              return (.scalar anchor tag style text, state.drop)
          | .flowSequenceStart => do
              let (items, state) ← flowItems? fuel true state.drop
              return (.sequence anchor tag items, state)
          | .flowMappingStart => do
              let (entries, state) ← flowEntries? fuel true state.drop
              return (.mapping anchor tag entries, state)
          | .blockSequenceStart =>
              if place = .flow then emptyNode? properties anchor tag state
              else do
                let (items, state) ← blockItems? fuel state.drop
                return (.sequence anchor tag items, state)
          | .blockMappingStart =>
              if place = .flow then emptyNode? properties anchor tag state
              else do
                let (entries, state) ← blockEntries? fuel state.drop
                return (.mapping anchor tag entries, state)
          | _ => emptyNode? properties anchor tag state

/-- Properties without content belong to an empty scalar; without properties there is no node. -/
def emptyNode? (properties : Properties) (anchor : Option Nat) (tag : Option Tag)
    (state : Grammar) : Option (Node × Grammar) :=
  if properties.anchor.isSome || properties.tag.isSome then
    some (.scalar anchor tag .plain "", state)
  else none

def nodeUnless? (ends : List Token) : Nat → Place → Grammar → Option (Node × Grammar)
  | 0, _, _ => none
  | fuel + 1, place, state =>
      if ends.contains state.next then some (.absent, state) else node? fuel place state

def blockItems? : Nat → Grammar → Option (List Node × Grammar)
  | 0, _ => none
  | fuel + 1, state =>
      match state.next with
      | .blockEntry => do
          let (item, state) ← nodeUnless? [.blockEntry, .blockEnd] fuel .block state.drop
          let (items, state) ← blockItems? fuel state
          return (item :: items, state)
      | .blockEnd => some ([], state.drop)
      | _ => none

def bareItems? : Nat → Grammar → Option (List Node × Grammar)
  | 0, _ => none
  | fuel + 1, state =>
      match state.next with
      | .blockEntry => do
          let (item, state) ←
            nodeUnless? [.blockEntry, .key, .value, .blockEnd] fuel .block state.drop
          let (items, state) ← bareItems? fuel state
          return (item :: items, state)
      | _ => some ([], state)

def blockEntries? : Nat → Grammar → Option (List (Node × Node) × Grammar)
  | 0, _ => none
  | fuel + 1, state =>
      match state.next with
      | .key => do
          let (key, state) ← nodeUnless? [.key, .value, .blockEnd] fuel .entry state.drop
          let (value, state) ←
            if state.next = .value then nodeUnless? [.key, .value, .blockEnd] fuel .entry state.drop
            else some (.absent, state)
          let (entries, state) ← blockEntries? fuel state
          return ((key, value) :: entries, state)
      | .blockEnd => some ([], state.drop)
      | _ => none

def flowValue? (ends : List Token) : Nat → Grammar → Option (Node × Grammar)
  | 0, _ => none
  | fuel + 1, state =>
      if state.next = .value then nodeUnless? ends fuel .flow state.drop else some (.absent, state)

/-- The items of a sequence in brackets up to its end.  An item with a key is a mapping of one
entry; an empty key takes the token after it along. -/
def flowItems? : Nat → Bool → Grammar → Option (List Node × Grammar)
  | 0, _, _ => none
  | fuel + 1, isFirst, state =>
      if state.next = .flowSequenceEnd then some ([], state.drop)
      else if !isFirst && state.next != .flowEntry then none
      else
        let state := if isFirst then state else state.drop
        match state.next with
        | .key => do
            let state := state.drop
            let (key, state) ←
              if [Token.value, .flowEntry, .flowSequenceEnd].contains state.next then
                some (.absent, state.drop)
              else node? fuel .flow state
            let (value, state) ← flowValue? [.flowEntry, .flowSequenceEnd] fuel state
            let (items, state) ← flowItems? fuel false state
            return (.mapping none none [(key, value)] :: items, state)
        | .flowSequenceEnd => some ([], state.drop)
        | _ => do
            let (item, state) ← node? fuel .flow state
            let (items, state) ← flowItems? fuel false state
            return (item :: items, state)

def flowEntries? : Nat → Bool → Grammar → Option (List (Node × Node) × Grammar)
  | 0, _, _ => none
  | fuel + 1, isFirst, state =>
      if state.next = .flowMappingEnd then some ([], state.drop)
      else if !isFirst && state.next != .flowEntry then none
      else
        let state := if isFirst then state else state.drop
        match state.next with
        | .key => do
            let (key, state) ←
              nodeUnless? [.value, .flowEntry, .flowMappingEnd] fuel .flow state.drop
            let (value, state) ← flowValue? [.flowEntry, .flowMappingEnd] fuel state
            let (entries, state) ← flowEntries? fuel false state
            return ((key, value) :: entries, state)
        | .flowMappingEnd => some ([], state.drop)
        | _ => do
            let (key, state) ← node? fuel .flow state
            let (entries, state) ← flowEntries? fuel false state
            return ((key, .absent) :: entries, state)

end

def defaultHandles : List (List Char × Tag) :=
  [(['!'], Tag.ofChars ['!']), (['!', '!'], Tag.core "")]

def directives? : List Token → Bool → List (List Char × Tag) →
    Option (List (List Char × Tag) × List Token)
  | .version major minor :: tokens, seen, handles =>
      if seen || major != 1 || (minor != 1 && minor != 2) then none
      else directives? tokens true handles
  | .handle name expansion :: tokens, seen, handles =>
      if (handles.lookup name).isSome then none
      else directives? tokens seen (handles ++ [(name, expansion)])
  | tokens, _, handles => some (handles, tokens)

def isDirective : Token → Bool
  | .version .. | .handle .. => true
  | _ => false

/-- The root of the only document of a stream.  The start of the document may be left out if it has
no directives. -/
def root? (tokens : List Token) : Option Node := do
  let fuel := 4 * tokens.length + 4
  let start (handles : List (List Char × Tag)) (tokens : List Token) : Grammar :=
    ⟨tokens, handles, []⟩
  let first := tokens.headD .streamEnd
  if first = .streamEnd then some .absent
  else
    let (root, state) ←
      if first = .documentStart || isDirective first then do
        let (handles, tokens) ← directives? tokens false []
        if tokens.headD .streamEnd != .documentStart then none
        else
          let state := start (handles ++ defaultHandles) (tokens.drop 1)
          if isDirective state.next || [Token.documentStart, .documentEnd, .streamEnd].contains state.next
            then some (Node.absent, state)
          else node? fuel .block state
      else node? fuel .block (start defaultHandles tokens)
    if state.tokens.dropWhile (· == .documentEnd) == [.streamEnd] then some root else none

end Grammar

/-! ## Trees -/

/-- A document with its anchored nodes; the last node under a number is meant. -/
structure Tree where
  root : Node
  anchored : List (Nat × Node)
  weight : Nat

def Tree.ofRoot (root : Node) : Tree := ⟨root, root.anchored.reverse, root.weight⟩

def parse? (text : String) : Option Tree := do
  let tokens ← tokens? text
  return .ofRoot (← Grammar.root? tokens.toList)

end ScanPath.Yaml
