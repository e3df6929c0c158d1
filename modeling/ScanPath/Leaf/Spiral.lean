import ScanPath.Leaf.Basic
import ScanPath.Leaf.Checks
import ScanPath.Trigonometry

/-!
# Spirals

A Fermat spiral over two axes: the density of points stays the same as the
radius grows.
-/

namespace ScanPath

def pi : Float := 3.141592653589793

structure Spiral where
  axes : List String
  units : List String
  centre : Float × Float
  radius : Float
  scale : Float
  alternate : Bool

namespace Spiral

def kind : String := "spiral"

def encodeFields (spiral : Spiral) : List (String × Json) :=
  [("axes", .strings spiral.axes), ("units", .strings spiral.units),
    ("centre", .floats [spiral.centre.1, spiral.centre.2]), ("radius", .ofFloat spiral.radius),
    ("scale", .ofFloat spiral.scale), ("alternate", .bool spiral.alternate)]

def fieldNames : List String := ["axes", "units", "centre", "radius", "scale", "alternate"]

def decode? (document : Document) : Option Spiral := do
  let record ← document.record? .inner fieldNames
  return {
    axes := ← record.require? "axes" (Document.listOf? .inner Document.text?)
    units := ← record.require? "units" (Document.listOf? .inner Document.text?)
    centre := ← record.require? "centre" Document.pair?
    radius := ← record.require? "radius" Document.float?
    scale := ← record.default? "scale" 1.0 Document.float?
    alternate := ← record.default? "alternate" false Document.bool? }

def alpha : Float := (4.0 * pi).sqrt

def beta (spiral : Spiral) : Float := spiral.scale / (2.0 * pi)

/-- The number of points within the radius, before it is taken as a count. -/
def points (spiral : Spiral) : Float :=
  let turns := spiral.radius / (alpha * spiral.beta)
  (turns * turns).floor

def size (spiral : Spiral) : Nat := spiral.points.toUInt64.toNat

def check (spiral : Spiral) : Except Cause Unit := do
  Leaf.requireAxes kind spiral.axes
  Leaf.requireLength kind "axes" 2 spiral.axes.length
  Leaf.requireLength kind "units" 2 spiral.units.length
  Leaf.requireFinite kind "centre" [spiral.centre.1, spiral.centre.2]
  Leaf.requirePositive kind "radius" spiral.radius
  Leaf.requirePositive kind "scale" spiral.scale
  if !spiral.points.isFinite || 18446744073709551616.0 ≤ spiral.points then
    .error (.spiralTooLarge spiral.radius spiral.scale)
  else if spiral.size = 0 then .error (.spiralTooSmall spiral.radius spiral.scale)
  else .ok ()

variable [Trigonometry]

def valuesAt (spiral : Spiral) (index : Nat) : Option (List Float) :=
  if index < spiral.size then
    let phi := (countToFloat index + 0.5).sqrt * alpha
    some [spiral.centre.1 + spiral.beta * phi * Trigonometry.sin phi,
      spiral.centre.2 + spiral.beta * phi * Trigonometry.cos phi]
  else none

def leaf (spiral : Spiral) : Leaf where
  axes := spiral.axes
  units := spiral.units
  size := spiral.size
  alternate := spiral.alternate
  valuesAt := spiral.valuesAt
  descriptor := .ofFields kind spiral.encodeFields

def build (spiral : Spiral) : Except Cause Leaf := do
  spiral.check
  return spiral.leaf

end Spiral

end ScanPath
