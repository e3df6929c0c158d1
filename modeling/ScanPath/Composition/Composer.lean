import ScanPath.Composition.Basic

/-!
# Composers

A composer collects leaves, finished compositions and modifiers and prepares
them, once, into one composition.  The parts of a finished composition are
spliced in where it stands; its duration is not taken over.
-/

namespace ScanPath

inductive Composer.Input where
  | leaf (part : Leaf)
  | nested (part : Composition)
  deriving Inhabited

structure Composer where
  inputs : List Composer.Input
  excluders : List Excluder
  mutators : List Mutator
  duration : Option Float
  prepared : Bool

namespace Composer

def ofParts (inputs : List Input) (excluders : List Excluder) (mutators : List Mutator)
    (duration : Option Float) : Composer :=
  ⟨inputs, excluders, mutators, duration, false⟩

def Input.leaves : Input → List Leaf
  | .leaf part => [part]
  | .nested part => part.leaves

def Input.excluders : Input → List Excluder
  | .leaf _ => []
  | .nested part => part.excluders

def Input.mutators : Input → List Mutator
  | .leaf _ => []
  | .nested part => part.mutators

/-- A negative duration counts as none; any other has to be finite and not zero. -/
def settledDuration : Option Float → Except Cause (Option Float)
  | none => .ok none
  | some duration =>
      if duration < 0.0 then .ok none
      else if !duration.isFinite || duration == 0.0 then .error (.badDuration duration)
      else .ok (some duration)

def compose (composer : Composer) : Except Cause Composition := do
  if composer.inputs.isEmpty then throw .noGenerators
  let duration ← settledDuration composer.duration
  let excluders := composer.excluders ++ composer.inputs.flatMap Input.excluders
  let mutators := composer.mutators ++ composer.inputs.flatMap Input.mutators
  Composition.assemble (composer.inputs.flatMap Input.leaves)
    (Descriptor.firstOccurrences Excluder.descriptor excluders)
    (Descriptor.firstOccurrences Mutator.descriptor mutators) duration

/-- Only the first call composes, whether it succeeds or not; every later one is refused. -/
def prepare (composer : Composer) : Except Cause Composition × Composer :=
  if composer.prepared then (.error .alreadyPrepared, composer)
  else (composer.compose, { composer with prepared := true })

end Composer

end ScanPath
