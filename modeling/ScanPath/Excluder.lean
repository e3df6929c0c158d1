import ScanPath.Descriptor
import ScanPath.Region

/-!
# Excluders

An excluder keeps the points whose coordinates on its axes pass a test.  The
excluder of regions of interest looks at two axes and keeps what lies in any of
its regions; `grouped` makes such excluders from regions that each name their
own axes.
-/

namespace ScanPath

structure Excluder where
  axes : List String
  contains : List Float → Bool
  descriptor : Descriptor
  deriving Inhabited

structure RegionSet where
  regions : List Region
  axes : List String

namespace RegionSet

def kind : String := "roi-excluder"

def encodeFields (set : RegionSet) : List (String × Json) :=
  [("regions", .array (set.regions.map Region.encode)), ("axes", .strings set.axes)]

def decode? (document : Document) : Option RegionSet := do
  let record ← document.record? .inner ["regions", "axes"]
  return {
    regions := ← record.require? "regions" (Document.listOf? .inner (Region.decode? .inner))
    axes := ← record.require? "axes" (Document.listOf? .inner Document.text?) }

def isAxisPair : List String → Bool
  | [first, second] => first != second
  | _ => false

def check (set : RegionSet) : Except Cause Unit :=
  if !isAxisPair set.axes then .error (.badAxisPair set.axes)
  else if set.regions.isEmpty then .error (.noRegions set.axes)
  else set.regions.forM Region.check

variable [Trigonometry]

def contains (set : RegionSet) : List Float → Bool
  | x :: y :: _ => set.regions.any fun region => region.contains x y
  | _ => false

def excluder (set : RegionSet) : Excluder where
  axes := set.axes
  contains := set.contains
  descriptor := .ofFields kind set.encodeFields

def build (set : RegionSet) : Except Cause Excluder := do
  set.check
  return set.excluder

end RegionSet

structure ScanRegion where
  region : Region
  axes : List String

namespace ScanRegion

def encode (scanRegion : ScanRegion) : Json :=
  .object [("region", scanRegion.region.encode), ("axes", .strings scanRegion.axes)]

def decode? (level : Document.Level) (document : Document) : Option ScanRegion := do
  let record ← document.record? level ["region", "axes"]
  return {
    region := ← record.require? "region" (Region.decode? level)
    axes := ← record.require? "axes" (Document.listOf? level Document.text?) }

def covers (scanRegion : ScanRegion) (group : RegionSet) : Bool :=
  group.axes.all fun axis => scanRegion.axes.contains axis

/-- Joins the first group whose axes the region covers, or opens a group of its own at the end. -/
def join (scanRegion : ScanRegion) : List RegionSet → List RegionSet
  | [] => [⟨[scanRegion.region], scanRegion.axes⟩]
  | group :: groups =>
      if scanRegion.covers group then
        { group with regions := group.regions ++ [scanRegion.region] } :: groups
      else group :: scanRegion.join groups

def groups (scanRegions : List ScanRegion) : List RegionSet :=
  scanRegions.foldl (fun groups scanRegion => scanRegion.join groups) []

def grouped (scanRegions : List ScanRegion) : Except Cause (List RegionSet) := do
  (groups scanRegions).forM RegionSet.check
  return groups scanRegions

end ScanRegion

end ScanPath
