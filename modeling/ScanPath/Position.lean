import ScanPath.Document

/-!
# Positions

A position gives every axis it carries a demanded value and the index of that
value along the dimension that owns the axis.
-/

namespace ScanPath

structure AxisPoint where
  value : Float
  index : Nat
  deriving Inhabited

/-- Values are compared as numbers: a NaN differs from itself. -/
instance : BEq AxisPoint :=
  ⟨fun first second => first.value == second.value && first.index == second.index⟩

abbrev Position := Keyed AxisPoint

namespace Position

def value? (position : Position) (axis : String) : Option Float :=
  (position.get? axis).map AxisPoint.value

def insertAll (position : Position) (axes : List String) (values : List Float) (index : Nat) :
    Position :=
  (axes.zip values).foldl (fun position (axis, value) => position.insert axis ⟨value, index⟩) position

def offset (position : Position) (axis : String) (delta : Float) : Position :=
  position.modify axis fun point => { point with value := point.value + delta }

def same (first second : Position) : Bool :=
  first.size == second.size && (first.entries.zip second.entries).all fun (p, q) =>
    p.1 == q.1 && p.2 == q.2

def encodePoint (point : AxisPoint) : Json :=
  .object [("value", .ofFloat point.value), ("index", .ofNat point.index)]

def encode (position : Position) : Json :=
  .object [("entries", .object (position.entries.map fun (axis, point) => (axis, encodePoint point)))]

def decodePoint? (level : Document.Level) (document : Document) : Option AxisPoint := do
  let record ← document.record? level ["value", "index"]
  return {
    value := ← record.require? "value" Document.float?
    index := ← record.require? "index" Document.count? }

def decode? (document : Document) : Option Position := do
  let record ← document.record? .outer ["entries"]
  record.require? "entries" (Document.tableOf? .outer (decodePoint? .outer))

end Position

end ScanPath
