import ScanPath.Excluder
import ScanPath.Mutator

/-!
# Described modifiers

The parameters of an excluder or a mutator with its kind under `type`.
-/

namespace ScanPath

inductive ExcluderConfig where
  | regions (parameters : RegionSet)

namespace ExcluderConfig

def kind : String := "roi"

def encode : ExcluderConfig → Json
  | .regions parameters => .object ((typeField, .string kind) :: parameters.encodeFields)

def decode? (level : Document.Level) (document : Document) : Option ExcluderConfig := do
  let (_, rest) ← document.tagged? level typeField [kind]
  return .regions (← RegionSet.decode? rest)

def build : ExcluderConfig → Except Cause Excluder
  | .regions parameters => parameters.build

end ExcluderConfig

inductive MutatorConfig where
  | randomOffset (parameters : RandomOffset)

namespace MutatorConfig

def encode : MutatorConfig → Json
  | .randomOffset parameters =>
      .object ((typeField, .string RandomOffset.kind) :: parameters.encodeFields)

def decode? (level : Document.Level) (document : Document) : Option MutatorConfig := do
  let (_, rest) ← document.tagged? level typeField [RandomOffset.kind]
  return .randomOffset (← RandomOffset.decode? rest)

def build : MutatorConfig → Except Cause Mutator
  | .randomOffset parameters => parameters.build

end MutatorConfig

end ScanPath
