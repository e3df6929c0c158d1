import ScanPath.Config.Scan
import ScanPath.Yaml.Resolution

/-!
# Descriptions in YAML

A YAML tree is read as a document.  Where it is known what is wanted, as for
the fields of the outermost scan, a scalar is taken for what is asked; inside
an entry that is read as a whole its spelling decides.  Aliases are followed
where something is read, up to a limit on their number and on the depth.
-/

namespace ScanPath.Yaml

/-- The state is the number of aliases followed. -/
abbrev Reader := StateT Nat Option

def depthLimit : Nat := 128

def followLimit : Nat := 100

def target (tree : Tree) (node : Node) : Reader Node :=
  match node with
  | .alias anchor => do
      let followed ← get
      if followLimit * tree.weight ≤ followed then failure
      else
        set (followed + 1)
        match tree.anchored.lookup anchor with
        | some node => return node
        | none => failure
  | node => return node

def hasOwnTag (tag : Option Tag) : Bool := (tag.bind Tag.local?).isSome

/-- A node as a document, `depth` collections deep at most. -/
def document (tree : Tree) : Nat → Node → Reader Document
  | depth, node => do
      match ← target tree node with
      | .scalar _ tag style text =>
          match scalarDocument? tag style text with
          | some document => return document
          | none => failure
      | .sequence _ tag items =>
          match depth with
          | 0 => failure
          | depth + 1 =>
              if hasOwnTag tag then failure
              else return .list (← items.mapM (document tree depth))
      | .mapping _ tag entries =>
          match depth with
          | 0 => failure
          | depth + 1 =>
              if hasOwnTag tag then failure
              else
                return .map (← entries.mapM fun (key, value) => do
                  let key ← document tree depth key
                  let value ← document tree depth value
                  return (key, value))
      | .alias _ => failure

def text (tree : Tree) (node : Node) : Reader Document := do
  match ← target tree node with
  | .scalar _ _ _ text => return .text text
  | _ => failure

def isAbsent (style : ScalarStyle) (text : String) : Bool := style == .plain && text.isEmpty

def list (tree : Tree) (item : Nat → Node → Reader Document) (depth : Nat) (node : Node) :
    Reader Document := do
  match ← target tree node with
  | .sequence _ _ items =>
      match depth with
      | 0 => failure
      | depth + 1 => return .list (← items.mapM (item depth))
  | .scalar _ _ style text => if isAbsent style text then return .list [] else failure
  | _ => failure

/-- A record whose fields are asked for by name; the values of other fields are not looked at. -/
def record (tree : Tree) (fields : List (String × (Nat → Node → Reader Document))) (depth : Nat)
    (node : Node) : Reader Document := do
  match ← target tree node with
  | .mapping _ _ entries =>
      match depth with
      | 0 => failure
      | depth + 1 =>
          let read ← entries.mapM fun (key, value) => do
            match ← text tree key with
            | .text name =>
                match fields.lookup name with
                | none => return none
                | some field => return some (Document.text name, ← field depth value)
            | _ => failure
          return .map (read.filterMap id)
  | .scalar _ _ style text => if isAbsent style text then return .map [] else failure
  | _ => failure

def tagged (tree : Tree) (tag : String) (depth : Nat) (node : Node) : Reader Document := do
  match ← target tree node, depth with
  | .mapping _ mark entries, depth + 1 =>
      if hasOwnTag mark then failure
      else
        return .map (← entries.mapM fun (key, value) => do
          let key ← document tree depth key
          let value ←
            if key.text? = some tag then text tree value else document tree depth value
          return (key, value))
  | .sequence _ mark (kind :: items), depth + 1 =>
      if hasOwnTag mark then failure
      else
        let kind ← text tree kind
        return .list (kind :: (← items.mapM (document tree depth)))
  | _, _ => failure

/-- A float or nothing.  A number has to be written as a float is, even if it is whole. -/
def optionalFloat (tree : Tree) (node : Node) : Reader Document := do
  match ← target tree node with
  | .scalar _ tag style text =>
      let isNone := style == .plain && (text.isEmpty || isNullWord text)
      if tag == some (Tag.core "null") && style == .plain then
        if isNullWord text then return .null else failure
      else if tag.isNone && isNone then return .null
      else if style == .plain || (style == .literal && tag == some (Tag.core "float")) then
        match floatNumber? text with
        | some x => return .float x
        | none => failure
      else failure
  | _ => failure

/-- A choice is a scalar, or a tag of the document's own that has nothing after it. -/
def choice (tree : Tree) (node : Node) : Reader Document := do
  match ← target tree node with
  | .scalar _ tag style text =>
      match tag.bind Tag.local? with
      | none => return .text text
      | some name =>
          if style == .plain && (text.isEmpty || isNullWord text) then return .text name
          else failure
  | _ => failure

def entry (tree : Tree) : Nat → Node → Reader Document := tagged tree typeField

def regionEntry (tree : Tree) : Nat → Node → Reader Document :=
  record tree [("region", entry tree), ("axes", list tree fun _ => text tree)]

def scanEntry (tree : Tree) : Nat → Node → Reader Document :=
  record tree
    [("generators", list tree (document tree)),
      ("excluders", list tree (entry tree)),
      ("regions", list tree (regionEntry tree)),
      ("mutators", list tree (entry tree)),
      ("duration", fun _ => optionalFloat tree),
      ("layout", fun _ => choice tree)]

def read? (wanted : Tree → Nat → Node → Reader Document) (source : String) : Option Document := do
  let tree ← parse? source
  let (document, _) ← (wanted tree depthLimit tree.root).run 0
  return document

def orUnreadable {α : Type} (result : Option α) : Except Cause α :=
  match result with
  | some value => .ok value
  | none => .error .unreadableYaml

end ScanPath.Yaml

namespace ScanPath

open Yaml

def ScanConfig.ofYaml (source : String) : Except Cause ScanConfig :=
  orUnreadable ((read? scanEntry source).bind ScanConfig.decode?)

def LeafConfig.ofYaml (source : String) : Except Cause LeafConfig :=
  orUnreadable ((read? entry source).bind (LeafConfig.decode? .outer))

def LeafConfig.listOfYaml (source : String) : Except Cause (List LeafConfig) :=
  orUnreadable ((read? (fun tree => list tree (entry tree)) source).bind
    (Document.listOf? .outer (LeafConfig.decode? .outer)))

def Region.ofYaml (source : String) : Except Cause Region :=
  orUnreadable ((read? entry source).bind (Region.decode? .outer))

def ExcluderConfig.listOfYaml (source : String) : Except Cause (List ExcluderConfig) :=
  orUnreadable ((read? (fun tree => list tree (entry tree)) source).bind
    (Document.listOf? .outer (ExcluderConfig.decode? .outer)))

def MutatorConfig.listOfYaml (source : String) : Except Cause (List MutatorConfig) :=
  orUnreadable ((read? (fun tree => list tree (entry tree)) source).bind
    (Document.listOf? .outer (MutatorConfig.decode? .outer)))

end ScanPath
