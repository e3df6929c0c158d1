import ScanPath.Composition.Basic

/-!
# Projected points

A position of a scan is given out by the number of its axes: one axis as a
scalar, two as a pair, any other number as a list of entries.  Axes come in the
order of the scan.
-/

namespace ScanPath

structure AxisEntry where
  axis : String
  index : Nat
  value : Float

/-- Which axis of a pair comes first: the faster one, or the one declared first. -/
inductive PairLayout where
  | fastFirst
  | declared
  deriving DecidableEq, Repr, Inhabited

def PairLayout.name : PairLayout → String
  | .fastFirst => "fast-first"
  | .declared => "declared"

inductive PointShape where
  | scalar (entry : AxisEntry)
  | pair (x y : AxisEntry) (dimensionNames : Option (List (List String)))
  | map (entries : List (String × AxisPoint)) (dimensionNames : List (List String))

namespace PointShape

def AxisEntry.point (entry : AxisEntry) : AxisPoint := ⟨entry.value, entry.index⟩

def point? (shape : PointShape) (axis : String) : Option AxisPoint :=
  match shape with
  | .scalar entry => if entry.axis = axis then some (AxisEntry.point entry) else none
  | .pair x y _ =>
      if x.axis = axis then some (AxisEntry.point x)
      else if y.axis = axis then some (AxisEntry.point y)
      else none
  | .map entries _ => entries.lookup axis

def value? (shape : PointShape) (axis : String) : Option Float :=
  (shape.point? axis).map AxisPoint.value

def index? (shape : PointShape) (axis : String) : Option Nat :=
  (shape.point? axis).map AxisPoint.index

def encodeEntryFields (entry : AxisEntry) : List (String × Json) :=
  [("axis", .string entry.axis), ("index", .ofNat entry.index), ("value", .ofFloat entry.value)]

def encodeNames (names : List (List String)) : Json := .array (names.map .strings)

def encode : PointShape → Json
  | .scalar entry => .object (("shape", .string "scalar") :: encodeEntryFields entry)
  | .pair x y dimensionNames =>
      .object ([("shape", .string "pair"), ("x", .object (encodeEntryFields x)),
          ("y", .object (encodeEntryFields y))]
        ++ match dimensionNames with
          | none => []
          | some names => [("dimension_names", encodeNames names)])
  | .map entries dimensionNames =>
      .object [("shape", .string "map"),
        ("entries", .object (entries.map fun (axis, point) => (axis, Position.encodePoint point))),
        ("dimension_names", encodeNames dimensionNames)]

end PointShape

namespace PointShape

def decodeMember? (document : Document) : Option AxisEntry := do
  let record ← document.record? .inner ["axis", "index", "value"]
  return {
    axis := ← record.require? "axis" Document.text?
    index := ← record.require? "index" Document.count?
    value := ← record.require? "value" Document.float? }

def decodeNames? : Document → Option (List (List String)) :=
  Document.listOf? .inner (Document.listOf? .inner Document.text?)

/-- Entries under text keys in the order in which they are given; a repeated key keeps its first
place and its last value. -/
def decodeEntries? : Document → Option (List (String × AxisPoint))
  | .map entries => do
      let entries ← entries.mapM fun (key, value) => do
        let key ← key.text?
        let point ← Position.decodePoint? .inner value
        return (key, point)
      return entries.foldl (fun known (key, point) =>
        if (known.lookup key).isSome then
          known.map fun entry => if entry.1 = key then (key, point) else entry
        else known ++ [(key, point)]) []
  | _ => none

def decode? (document : Document) : Option PointShape := do
  let (kind, rest) ← document.tagged? .outer "shape" ["scalar", "pair", "map"]
  match kind with
  | "scalar" => (decodeMember? rest).map .scalar
  | "pair" => do
      let record ← rest.record? .inner ["x", "y", "dimension_names"]
      return .pair (← record.require? "x" decodeMember?) (← record.require? "y" decodeMember?)
        (← record.default? "dimension_names" none (Document.orNull? decodeNames?))
  | "map" => do
      let record ← rest.record? .inner ["entries", "dimension_names"]
      return .map (← record.require? "entries" decodeEntries?)
        (← record.require? "dimension_names" decodeNames?)
  | _ => none

end PointShape

structure Projector where
  axisOrdering : List String
  dimensionNames : List (List String)
  layout : PairLayout

namespace Projector

def ofComposition (composition : Composition) (layout : PairLayout) : Projector :=
  ⟨composition.axisOrdering, composition.dimensionNames, layout⟩

def arity (projector : Projector) : Nat := projector.axisOrdering.length

def entries (projector : Projector) (position : Position) : List AxisEntry :=
  projector.axisOrdering.filterMap fun axis =>
    (position.get? axis).map fun point => ⟨axis, point.index, point.value⟩

/-- A position that lacks an axis of the scan is given out as a list of entries. -/
def project (projector : Projector) (position : Position) : PointShape :=
  match projector.arity, projector.entries position with
  | 1, [only] => .scalar only
  | 2, [first, second] =>
      match projector.layout with
      | .fastFirst => .pair second first (some projector.dimensionNames)
      | .declared => .pair first second none
  | _, entries =>
      .map (entries.map fun entry => (entry.axis, ⟨entry.value, entry.index⟩))
        projector.dimensionNames

end Projector

end ScanPath
