import ScanPath.Cause
import ScanPath.Decimal.Remainder
import ScanPath.Document
import ScanPath.Trigonometry

/-!
# Regions of interest

Two-dimensional regions, boundary included.  Angles are in radians,
anticlockwise from the first axis.
-/

namespace ScanPath

inductive Region where
  | circular (centre : Float × Float) (radius : Float)
  | elliptical (centre semiaxes : Float × Float) (angle : Float)
  | point (target : Float × Float)
  | polygonal (pointsX pointsY : List Float)
  | rectangular (start : Float × Float) (width height angle : Float)
  | sector (centre radii angles : Float × Float)

namespace Region

def kind : Region → String
  | .circular .. => "circular"
  | .elliptical .. => "elliptical"
  | .point .. => "point"
  | .polygonal .. => "polygonal"
  | .rectangular .. => "rectangular"
  | .sector .. => "sector"

def encodePair (pair : Float × Float) : Json := .floats [pair.1, pair.2]

def encodeFields : Region → List (String × Json)
  | .circular centre radius => [("centre", encodePair centre), ("radius", .ofFloat radius)]
  | .elliptical centre semiaxes angle =>
      [("centre", encodePair centre), ("semiaxes", encodePair semiaxes), ("angle", .ofFloat angle)]
  | .point target => [("point", encodePair target)]
  | .polygonal pointsX pointsY =>
      [("points_x", .floats pointsX), ("points_y", .floats pointsY)]
  | .rectangular start width height angle =>
      [("start", encodePair start), ("width", .ofFloat width), ("height", .ofFloat height),
        ("angle", .ofFloat angle)]
  | .sector centre radii angles =>
      [("centre", encodePair centre), ("radii", encodePair radii), ("angles", encodePair angles)]

def encode (region : Region) : Json :=
  .object (("type", .string region.kind) :: region.encodeFields)

def kinds : List String :=
  ["circular", "elliptical", "point", "polygonal", "rectangular", "sector"]

def decodeFields? (kind : String) (document : Document) : Option Region :=
  match kind with
  | "circular" => do
      let record ← document.record? .inner ["centre", "radius"]
      return .circular (← record.require? "centre" Document.pair?)
        (← record.require? "radius" Document.float?)
  | "elliptical" => do
      let record ← document.record? .inner ["centre", "semiaxes", "angle"]
      return .elliptical (← record.require? "centre" Document.pair?)
        (← record.require? "semiaxes" Document.pair?)
        (← record.default? "angle" 0.0 Document.float?)
  | "point" => do
      let record ← document.record? .inner ["point"]
      return .point (← record.require? "point" Document.pair?)
  | "polygonal" => do
      let record ← document.record? .inner ["points_x", "points_y"]
      return .polygonal (← record.require? "points_x" (Document.listOf? .inner Document.float?))
        (← record.require? "points_y" (Document.listOf? .inner Document.float?))
  | "rectangular" => do
      let record ← document.record? .inner ["start", "width", "height", "angle"]
      return .rectangular (← record.require? "start" Document.pair?)
        (← record.require? "width" Document.float?) (← record.require? "height" Document.float?)
        (← record.default? "angle" 0.0 Document.float?)
  | "sector" => do
      let record ← document.record? .inner ["centre", "radii", "angles"]
      return .sector (← record.require? "centre" Document.pair?)
        (← record.require? "radii" Document.pair?) (← record.require? "angles" Document.pair?)
  | _ => none

def decode? (level : Document.Level) (document : Document) : Option Region := do
  let (kind, rest) ← document.tagged? level "type" kinds
  decodeFields? kind rest

def requireFinite (kind : String) (values : List Float) : Except Cause Unit :=
  if values.all Float.isFinite then .ok () else .error (.regionNonFinite kind)

def check (region : Region) : Except Cause Unit :=
  let kind := region.kind
  match region with
  | .circular centre radius => do
      requireFinite kind [centre.1, centre.2, radius]
      if radius ≤ 0.0 then .error (.regionNonPositive kind "radius") else .ok ()
  | .elliptical centre semiaxes angle => do
      requireFinite kind [centre.1, centre.2, semiaxes.1, semiaxes.2, angle]
      if semiaxes.1 ≤ 0.0 || semiaxes.2 ≤ 0.0 then .error (.regionNonPositive kind "semi-axes")
      else .ok ()
  | .point target => requireFinite kind [target.1, target.2]
  | .polygonal pointsX pointsY =>
      if pointsX.length ≠ pointsY.length then .error (.polygonMismatch kind)
      else if pointsX.length < 3 then .error (.polygonDegenerate kind)
      else requireFinite kind (pointsX ++ pointsY)
  | .rectangular start width height angle => do
      requireFinite kind [start.1, start.2, width, height, angle]
      if width ≤ 0.0 || height ≤ 0.0 then .error (.regionNonPositive kind "width and height")
      else .ok ()
  | .sector centre radii angles => do
      requireFinite kind [centre.1, centre.2, radii.1, radii.2, angles.1, angles.2]
      if radii.1 < 0.0 || radii.2 ≤ radii.1 then .error (.sectorRadii kind)
      else if angles.2 ≤ angles.1 then .error (.sectorAngles kind)
      else .ok ()

def square (x : Float) : Float := x * x

def rotate [Trigonometry] (x y angle : Float) : Float × Float :=
  let sin := Trigonometry.sin angle
  let cos := Trigonometry.cos angle
  (x * cos - y * sin, x * sin + y * cos)

def tolerance : Float := 1e-12

def turn : Float := 6.283185307179586

/-- Does a ray from `(x, y)` along the first axis cross the edge between two vertices? -/
def crosses (x y : Float) (vertex previous : Float × Float) : Bool :=
  (y < vertex.2) != (y < previous.2)
    && x < (previous.1 - vertex.1) * (y - vertex.2) / (previous.2 - vertex.2) + vertex.1

def crossingParity (x y : Float) (previous : Float × Float) : List (Float × Float) → Bool
  | [] => false
  | vertex :: vertices => crosses x y vertex previous != crossingParity x y vertex vertices

/-- The even-odd rule over a closed chain of at least three vertices. -/
def polygonContains (vertices : List (Float × Float)) (x y : Float) : Bool :=
  match vertices.getLast? with
  | none => false
  | some last => decide (3 ≤ vertices.length) && crossingParity x y last vertices

def contains [Trigonometry] (region : Region) (x y : Float) : Bool :=
  match region with
  | .circular centre radius =>
      let dx := x - centre.1
      let dy := y - centre.2
      dx * dx + dy * dy ≤ radius * radius
  | .elliptical centre semiaxes angle =>
      let (u, v) := rotate (x - centre.1) (y - centre.2) (-angle)
      square (u / semiaxes.1) + square (v / semiaxes.2) ≤ 1.0
  | .point target => (x - target.1).abs ≤ tolerance && (y - target.2).abs ≤ tolerance
  | .polygonal pointsX pointsY => polygonContains (pointsX.zip pointsY) x y
  | .rectangular start width height angle =>
      let (u, v) := rotate (x - start.1) (y - start.2) (-angle)
      0.0 ≤ u && u ≤ width && 0.0 ≤ v && v ≤ height
  | .sector centre radii angles =>
      let dx := x - centre.1
      let dy := y - centre.2
      let distance := (dx * dx + dy * dy).sqrt
      if distance < radii.1 || radii.2 < distance then false
      else if turn ≤ angles.2 - angles.1 then true
      else
        Decimal.remainderEuclid (Trigonometry.atan2 dy dx - angles.1) turn ≤ angles.2 - angles.1

end Region

end ScanPath
