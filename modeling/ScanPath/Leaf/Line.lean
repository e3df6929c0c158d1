import ScanPath.Leaf.Basic
import ScanPath.Leaf.Checks

/-!
# Lines

Evenly spaced points from `start` to `stop`, all axes sharing one index.
-/

namespace ScanPath

structure Line where
  axes : List String
  units : List String
  start : List Float
  stop : List Float
  numPoints : Nat
  alternate : Bool

namespace Line

def kind : String := "line"

def single (axis units : String) (start stop : Float) (numPoints : Nat) : Line :=
  ⟨[axis], [units], [start], [stop], numPoints, false⟩

def encodeFields (line : Line) : List (String × Json) :=
  [("axes", .strings line.axes), ("units", .strings line.units), ("start", .floats line.start),
    ("stop", .floats line.stop), ("num_points", .ofNat line.numPoints),
    ("alternate", .bool line.alternate)]

def fieldNames : List String := ["axes", "units", "start", "stop", "num_points", "alternate"]

/-- A line on one axis may leave the brackets of its lists out. -/
def decode? (document : Document) : Option Line := do
  let record ← document.record? .inner fieldNames
  return {
    axes := ← record.require? "axes" (Document.oneOrMany? Document.text?)
    units := ← record.require? "units" (Document.oneOrMany? Document.text?)
    start := ← record.require? "start" (Document.oneOrMany? Document.float?)
    stop := ← record.require? "stop" (Document.oneOrMany? Document.float?)
    numPoints := ← record.require? "num_points" Document.count?
    alternate := ← record.default? "alternate" false Document.bool? }

def check (line : Line) : Except Cause Unit := do
  Leaf.requireAxes kind line.axes
  let width := line.axes.length
  Leaf.requireLength kind "units" width line.units.length
  Leaf.requireLength kind "start" width line.start.length
  Leaf.requireLength kind "stop" width line.stop.length
  Leaf.requireCount kind "num_points" line.numPoints
  Leaf.requireFinite kind "start" line.start
  Leaf.requireFinite kind "stop" line.stop

def stepBetween (numPoints : Nat) (start stop : Float) : Float :=
  if 1 < numPoints then (stop - start) / countToFloat (numPoints - 1) else 0.0

def steps (line : Line) : List Float :=
  List.zipWith (stepBetween line.numPoints) line.start line.stop

def valuesAt (line : Line) (index : Nat) : Option (List Float) :=
  if index < line.numPoints then
    some (List.zipWith (fun start step => start + countToFloat index * step) line.start line.steps)
  else none

def leaf (line : Line) : Leaf where
  axes := line.axes
  units := line.units
  size := line.numPoints
  alternate := line.alternate
  valuesAt := line.valuesAt
  descriptor := .ofFields kind line.encodeFields

def build (line : Line) : Except Cause Leaf := do
  line.check
  return line.leaf

end Line

end ScanPath
