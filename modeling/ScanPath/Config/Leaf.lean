import ScanPath.Leaf.Line
import ScanPath.Leaf.Lissajous
import ScanPath.Leaf.Listed
import ScanPath.Leaf.Spiral

/-!
# Described leaves

The parameters of a leaf with its kind under `type`.
-/

namespace ScanPath

inductive LeafConfig where
  | line (parameters : Line)
  | listed (parameters : Listed)
  | spiral (parameters : Spiral)
  | lissajous (parameters : Lissajous)

namespace LeafConfig

def kind : LeafConfig → String
  | .line _ => Line.kind
  | .listed _ => Listed.kind
  | .spiral _ => Spiral.kind
  | .lissajous _ => Lissajous.kind

def encodeFields : LeafConfig → List (String × Json)
  | .line parameters => parameters.encodeFields
  | .listed parameters => parameters.encodeFields
  | .spiral parameters => parameters.encodeFields
  | .lissajous parameters => parameters.encodeFields

def encode (config : LeafConfig) : Json :=
  .object ((typeField, .string config.kind) :: config.encodeFields)

def kinds : List String := [Line.kind, Listed.kind, Spiral.kind, Lissajous.kind]

def decode? (level : Document.Level) (document : Document) : Option LeafConfig := do
  let (kind, rest) ← document.tagged? level typeField kinds
  if kind = Line.kind then (Line.decode? rest).map .line
  else if kind = Listed.kind then (Listed.decode? rest).map .listed
  else if kind = Spiral.kind then (Spiral.decode? rest).map .spiral
  else (Lissajous.decode? rest).map .lissajous

def build [Trigonometry] : LeafConfig → Except Cause ScanPath.Leaf
  | .line parameters => parameters.build
  | .listed parameters => parameters.build
  | .spiral parameters => parameters.build
  | .lissajous parameters => parameters.build

end LeafConfig

end ScanPath
