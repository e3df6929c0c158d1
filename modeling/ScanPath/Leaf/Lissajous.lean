import ScanPath.Leaf.Spiral

/-!
# Lissajous curves

A closed curve in a rectangle whose frequencies along the two axes are the
number of lobes and one more.
-/

namespace ScanPath

structure Bounds where
  centre : Float × Float
  width : Float
  height : Float

def Bounds.encode (bounds : Bounds) : Json :=
  .object [("centre", .floats [bounds.centre.1, bounds.centre.2]),
    ("width", .ofFloat bounds.width), ("height", .ofFloat bounds.height)]

def Bounds.fieldNames : List String := ["centre", "width", "height"]

def Bounds.decode? (document : Document) : Option Bounds := do
  let record ← document.record? .inner fieldNames
  return {
    centre := ← record.require? "centre" Document.pair?
    width := ← record.require? "width" Document.float?
    height := ← record.require? "height" Document.float? }

structure Lissajous where
  axes : List String
  units : List String
  bounds : Bounds
  numLobes : Nat
  numPoints : Nat

namespace Lissajous

def kind : String := "lissajous"

def encodeFields (curve : Lissajous) : List (String × Json) :=
  [("axes", .strings curve.axes), ("units", .strings curve.units), ("box", curve.bounds.encode),
    ("num_lobes", .ofNat curve.numLobes), ("num_points", .ofNat curve.numPoints)]

def fieldNames : List String := ["axes", "units", "box", "num_lobes", "num_points"]

def decode? (document : Document) : Option Lissajous := do
  let record ← document.record? .inner fieldNames
  return {
    axes := ← record.require? "axes" (Document.listOf? .inner Document.text?)
    units := ← record.require? "units" (Document.listOf? .inner Document.text?)
    bounds := ← record.require? "box" Bounds.decode?
    numLobes := ← record.require? "num_lobes" Document.count?
    numPoints := ← record.require? "num_points" Document.count? }

def check (curve : Lissajous) : Except Cause Unit := do
  Leaf.requireAxes kind curve.axes
  Leaf.requireLength kind "axes" 2 curve.axes.length
  Leaf.requireLength kind "units" 2 curve.units.length
  Leaf.requireFinite kind "box.centre" [curve.bounds.centre.1, curve.bounds.centre.2]
  Leaf.requirePositive kind "box.width" curve.bounds.width
  Leaf.requirePositive kind "box.height" curve.bounds.height
  Leaf.requireCount kind "num_lobes" curve.numLobes
  Leaf.requireCount kind "num_points" curve.numPoints

def xFrequency (curve : Lissajous) : Float := countToFloat curve.numLobes

/-- One more than the number of lobes, in 64 bits. -/
def yFrequency (curve : Lissajous) : Float := (curve.numLobes.toUInt64 + 1).toFloat

def increment (curve : Lissajous) : Float := 2.0 * pi / countToFloat curve.numPoints

variable [Trigonometry]

def valuesAt (curve : Lissajous) (index : Nat) : Option (List Float) :=
  if index < curve.numPoints then
    let t := countToFloat index * curve.increment
    let xMax := curve.bounds.width / 2.0
    let yMax := curve.bounds.height / 2.0
    some [curve.bounds.centre.1 + xMax * Trigonometry.sin (curve.xFrequency * t + pi / 2.0),
      curve.bounds.centre.2 + yMax * Trigonometry.sin (curve.yFrequency * t)]
  else none

def leaf (curve : Lissajous) : Leaf where
  axes := curve.axes
  units := curve.units
  size := curve.numPoints
  alternate := false
  valuesAt := curve.valuesAt
  descriptor := .ofFields kind curve.encodeFields

def build (curve : Lissajous) : Except Cause Leaf := do
  curve.check
  return curve.leaf

end Lissajous

end ScanPath
