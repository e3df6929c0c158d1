import ScanPath.Leaf.Basic
import ScanPath.Leaf.Checks

/-!
# Listed points

An explicit list of positions on one axis, visited in order.
-/

namespace ScanPath

structure Listed where
  axis : String
  units : String
  points : List Float
  alternate : Bool

namespace Listed

def kind : String := "array"

def encodeFields (listed : Listed) : List (String × Json) :=
  [("axis", .string listed.axis), ("units", .string listed.units),
    ("points", .floats listed.points), ("alternate", .bool listed.alternate)]

def fieldNames : List String := ["axis", "units", "points", "alternate"]

def decode? (document : Document) : Option Listed := do
  let record ← document.record? .inner fieldNames
  return {
    axis := ← record.require? "axis" Document.text?
    units := ← record.require? "units" Document.text?
    points := ← record.require? "points" (Document.listOf? .inner Document.float?)
    alternate := ← record.default? "alternate" false Document.bool? }

def check (listed : Listed) : Except Cause Unit := do
  Leaf.requireAxes kind [listed.axis]
  if listed.points.isEmpty then .error (.emptyPoints listed.axis)
  else Leaf.requireFinite kind "points" listed.points

def valuesAt (listed : Listed) (index : Nat) : Option (List Float) :=
  listed.points[index]?.map fun value => [value]

def leaf (listed : Listed) : Leaf where
  axes := [listed.axis]
  units := [listed.units]
  size := listed.points.length
  alternate := listed.alternate
  valuesAt := listed.valuesAt
  descriptor := .ofFields kind listed.encodeFields

def build (listed : Listed) : Except Cause Leaf := do
  listed.check
  return listed.leaf

end Listed

end ScanPath
