import ScanPath.Decimal.Layout
import ScanPath.Fault

/-!
# Causes of faults

Every way in which an operation of this library can fail, and the fault that
each is reported as.
-/

namespace ScanPath

inductive Role where
  | excluder
  | mutator
  deriving DecidableEq, Repr

def Role.name : Role → String
  | .excluder => "excluder"
  | .mutator => "mutator"

/-- `kind` names the sort of leaf or region that was refused. -/
inductive Cause where
  -- leaves
  | noAxes (kind : String)
  | blankAxis (kind : String) (position : Nat)
  | repeatedAxis (kind axis : String)
  | lengthMismatch (kind field : String) (expected actual : Nat)
  | zeroCount (kind field : String)
  | nonFinite (kind field : String) (value : Float)
  | nonPositive (kind field : String) (value : Float)
  | emptyPoints (axis : String)
  | spiralTooLarge (radius scale : Float)
  | spiralTooSmall (radius scale : Float)
  -- regions
  | regionNonFinite (kind : String)
  | regionNonPositive (kind what : String)
  | polygonMismatch (kind : String)
  | polygonDegenerate (kind : String)
  | sectorRadii (kind : String)
  | sectorAngles (kind : String)
  -- modifiers
  | badAxisPair (axes : List String)
  | noRegions (axes : List String)
  | noOffsetAxes
  | badOffset (axis : String) (bound : Float)
  | missingOffset (axis : String)
  -- compositions
  | alreadyPrepared
  | noGenerators
  | badDuration (duration : Float)
  | overlappingAxes (axis : String) (first second : Nat)
  | unknownAxis (role : Role) (axis : String)
  | sizeOverflow (shape : List Nat)
  -- descriptions and files
  | descriptorShape (kind found : String)
  | keyNotText
  | unreadableYaml
  | unreadableFile (path : String)
  -- iteration
  | exhausted

namespace Cause

def shapeText (shape : List Nat) : String :=
  "[" ++ String.intercalate ", " (shape.map toString) ++ "]"

private def number (x : Float) : String := Decimal.plain.text x

private def leafField (kind field requirement : String) : String :=
  kind ++ " generator: `" ++ field ++ "` must " ++ requirement

def detail : Cause → Detail
  | .noAxes kind => .plain "no-axes" (kind ++ " generator needs at least one axis")
  | .blankAxis kind position =>
      (Detail.plain "empty-axis-name" (kind ++ " generator has a blank axis name")).noting
        "position" (toString position)
  | .repeatedAxis kind axis =>
      (Detail.plain "duplicate-axis" (kind ++ " generator repeats an axis")).noting "axis" axis
  | .lengthMismatch kind field expected actual =>
      ((Detail.plain "length-mismatch" (leafField kind field "have one entry per axis")).noting
        "expected" (toString expected)).noting "actual" (toString actual)
  | .zeroCount kind field =>
      (Detail.plain "non-positive-count" (leafField kind field "be positive")).noting field "0"
  | .nonFinite kind field value =>
      (Detail.plain "non-finite" (leafField kind field "be finite")).noting field (number value)
  | .nonPositive kind field value =>
      (Detail.plain "non-positive" (leafField kind field "be positive")).noting field (number value)
  | .emptyPoints axis =>
      (Detail.plain "empty-points" "array generator needs at least one point").noting "axis" axis
  | .spiralTooLarge radius scale =>
      ((Detail.plain "spiral-too-large" "spiral radius is too large for its scale").noting
        "radius" (number radius)).noting "scale" (number scale)
  | .spiralTooSmall radius scale =>
      (((Detail.plain "empty-spiral" "spiral radius is too small for its scale").noting
        "radius" (number radius)).noting "scale" (number scale)).hinting
        "increase the radius or reduce the scale"
  | .regionNonFinite kind =>
      (Detail.plain "non-finite" "region parameters must be finite").noting "region" kind
  | .regionNonPositive kind what =>
      (Detail.plain "non-positive" (what ++ " must be positive")).noting "region" kind
  | .polygonMismatch kind =>
      (Detail.plain "length-mismatch" "polygon coordinate lists must have equal length").noting
        "region" kind
  | .polygonDegenerate kind =>
      (Detail.plain "degenerate" "polygon needs at least three vertices").noting "region" kind
  | .sectorRadii kind =>
      (Detail.plain "bad-radii" "sector radii must satisfy 0 <= inner < outer").noting "region" kind
  | .sectorAngles kind =>
      (Detail.plain "bad-angles" "sector end angle must exceed start").noting "region" kind
  | .badAxisPair axes =>
      (Detail.plain "bad-axis-pair" "roi excluder needs two distinct axes").noting
        "axes" (String.intercalate "," axes)
  | .noRegions axes =>
      (Detail.plain "no-regions" "roi excluder needs at least one region").noting
        "axes" (String.intercalate "," axes)
  | .noOffsetAxes => .plain "no-axes" "random offset mutator needs at least one axis"
  | .badOffset axis bound =>
      ((Detail.plain "bad-offset" "max offset must be finite and non-negative").noting
        "axis" axis).noting "max_offset" (number bound)
  | .missingOffset axis =>
      (Detail.plain "missing-offset" "no max offset given for axis").noting "axis" axis
  | .alreadyPrepared => .plain "already-prepared" "composer has already been prepared"
  | .noGenerators => .plain "no-generators" "composition needs at least one generator"
  | .badDuration duration =>
      (Detail.plain "bad-duration" "duration must be finite and non-zero").noting
        "duration" (number duration)
  | .overlappingAxes axis first second =>
      ((((Detail.plain "overlapping-axes" "axis is declared by two generators").noting
        "axis" axis).noting "first" (toString first)).noting "second" (toString second)).hinting
        "give every generator in a composition distinct axis names"
  | .unknownAxis role axis =>
      ((Detail.plain "unknown-axis" (role.name ++ " names an axis no generator declares")).noting
        "axis" axis).noting "role" role.name
  | .sizeOverflow shape =>
      (Detail.plain "size-overflow" "scan has more points than can be counted").noting
        "shape" (shapeText shape)
  | .descriptorShape kind found =>
      ((Detail.plain "descriptor-shape" "descriptor parameters must be an object").noting
        "kind" kind).noting "found" found
  | .keyNotText => .plain "json_serialize" "key must be a string"
  | .unreadableYaml => .plain "yaml_deserialize" "no readable YAML description"
  | .unreadableFile path => (Detail.plain "scan-read" "the file cannot be read").noting "path" path
  | .exhausted => .plain "exhausted" "no more points in the scan"

def fault (cause : Cause) : Fault :=
  match cause with
  | .exhausted => .exhausted cause.detail
  | .descriptorShape _ _ | .keyNotText | .unreadableYaml => .encoding cause.detail
  | _ => .configuration cause.detail

end Cause

end ScanPath
