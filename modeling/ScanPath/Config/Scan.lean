import ScanPath.Config.Leaf
import ScanPath.Config.Modifier
import ScanPath.Scan

/-!
# Described scans

A scan is described by its generators, outermost first, each a leaf or another
scan, and by settings that hold for all of them.  The layout is heeded on the
outermost scan only.
-/

namespace ScanPath

structure ScanSettings where
  excluders : List ExcluderConfig
  regions : List ScanRegion
  mutators : List MutatorConfig
  duration : Option Float
  layout : PairLayout

structure ScanDescription (ι : Type) where
  generators : List ι
  settings : ScanSettings

inductive GeneratorConfig where
  | leaf (config : LeafConfig)
  | compound (config : ScanDescription GeneratorConfig)

abbrev ScanConfig := ScanDescription GeneratorConfig

def ScanSettings.compose (settings : ScanSettings) (inputs : List Composer.Input) :
    Except Cause Composition := do
  let excluders ← settings.excluders.mapM ExcluderConfig.build
  let groups ← ScanRegion.grouped settings.regions
  let mutators ← settings.mutators.mapM MutatorConfig.build
  (Composer.ofParts inputs (excluders ++ groups.map RegionSet.excluder) mutators
    settings.duration).prepare.1

namespace GeneratorConfig

mutual

def build : GeneratorConfig → Except Cause Composer.Input
  | .leaf config => config.build.map .leaf
  | .compound ⟨generators, settings⟩ => do
      let inputs ← buildAll generators
      return .nested (← settings.compose inputs)

def buildAll : List GeneratorConfig → Except Cause (List Composer.Input)
  | [] => .ok []
  | config :: configs => do
      let input ← build config
      let inputs ← buildAll configs
      return input :: inputs

end

end GeneratorConfig

namespace ScanConfig

def build (config : ScanConfig) : Except Cause Composition := do
  let inputs ← GeneratorConfig.buildAll config.generators
  config.settings.compose inputs

def scan (config : ScanConfig) : Except Cause Scan := do
  return .ofComposition (← build config) config.settings.layout

end ScanConfig

def ScanSettings.encodeFields (settings : ScanSettings) : List (String × Json) :=
  [("excluders", .array (settings.excluders.map ExcluderConfig.encode)),
    ("regions", .array (settings.regions.map ScanRegion.encode)),
    ("mutators", .array (settings.mutators.map MutatorConfig.encode)),
    ("duration", Json.optional .ofFloat settings.duration),
    ("layout", .string settings.layout.name)]

namespace GeneratorConfig

mutual

def encode : GeneratorConfig → Json
  | .leaf config => config.encode
  | .compound ⟨generators, settings⟩ =>
      .object [("compound",
        .object (("generators", .array (encodeAll generators)) :: settings.encodeFields))]

def encodeAll : List GeneratorConfig → List Json
  | [] => []
  | config :: configs => encode config :: encodeAll configs

end

end GeneratorConfig

def ScanConfig.encode (config : ScanConfig) : Json :=
  .object (("generators", .array (GeneratorConfig.encodeAll config.generators))
    :: config.settings.encodeFields)

def PairLayout.decode? (level : Document.Level) (document : Document) : Option PairLayout := do
  let name ← document.choice? level [PairLayout.fastFirst.name, PairLayout.declared.name]
  return if name = PairLayout.fastFirst.name then .fastFirst else .declared

namespace ScanDescription

def fieldNames : List String :=
  ["generators", "excluders", "regions", "mutators", "duration", "layout"]

def decode? {ι : Type} (level : Document.Level) (generator? : Document → Option ι)
    (document : Document) : Option (ScanDescription ι) := do
  let record ← document.record? level fieldNames
  let generators ← record.require? "generators" (Document.listOf? level generator?)
  return {
    generators
    settings := {
      excluders := ← record.default? "excluders" []
        (Document.listOf? level (ExcluderConfig.decode? level))
      regions := ← record.default? "regions" [] (Document.listOf? level (ScanRegion.decode? level))
      mutators := ← record.default? "mutators" []
        (Document.listOf? level (MutatorConfig.decode? level))
      duration := ← record.default? "duration" none (Document.orNull? Document.float?)
      layout := ← record.default? "layout" .fastFirst (PairLayout.decode? level) } }

end ScanDescription

namespace GeneratorConfig

def compoundPart? : Document → Option Document
  | .map entries => do
      let record ← (Document.map entries).record? .inner ["compound"]
      record.lookup "compound"
  | _ => none

/-- A readable nested scan goes before a readable leaf.  `fuel` bounds the nesting. -/
def decodeWithin? : Nat → Document → Option GeneratorConfig
  | 0, _ => none
  | fuel + 1, document =>
      let nested := do
        let part ← compoundPart? document
        ScanDescription.decode? .inner (decodeWithin? fuel) part
      match nested with
      | some config => some (.compound config)
      | none => (LeafConfig.decode? .inner document).map .leaf

def decode? (document : Document) : Option GeneratorConfig :=
  decodeWithin? (document.depth + 1) document

end GeneratorConfig

def ScanConfig.decode? (document : Document) : Option ScanConfig :=
  ScanDescription.decode? .outer GeneratorConfig.decode? document

end ScanPath
