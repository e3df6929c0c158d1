import ScanPath.Composition.Dimension
import ScanPath.Composition.Odometer
import ScanPath.Mutator

/-!
# Compositions

A composition is the product of its leaves, one dimension each, filtered by
excluders and changed by mutators.  An excluder whose axes all belong to one
dimension is folded into it; every other excluder spans dimensions and is asked
for each candidate point.
-/

namespace ScanPath

/-- `owners` gives the dimension of every axis; `size` is the number of points of one pass. -/
structure Composition where
  dimensions : List Dimension
  owners : Keyed Nat
  excluders : List Excluder
  spanning : List Excluder
  mutators : List Mutator
  duration : Option Float
  size : Nat
  deriving Inhabited

namespace Composition

def leaves (composition : Composition) : List Leaf := composition.dimensions.map Dimension.leaf

def axisOrdering (composition : Composition) : List String :=
  composition.dimensions.flatMap Dimension.axes

def dimensionNames (composition : Composition) : List (List String) :=
  composition.dimensions.map Dimension.axes

def shape (composition : Composition) : List Nat := composition.dimensions.map Dimension.length

def rank (composition : Composition) : Nat := composition.dimensions.length

def wheels (composition : Composition) : List Wheel :=
  composition.dimensions.map fun dimension => ⟨dimension.length, dimension.alternate⟩

def kind : String := "compound"

def descriptor (composition : Composition) : Descriptor :=
  .ofFields kind
    [("generators", .array (composition.leaves.map fun leaf => leaf.descriptor.value)),
      ("excluders", .array (composition.excluders.map fun excluder => excluder.descriptor.value)),
      ("mutators", .array (composition.mutators.map fun mutator => mutator.descriptor.value)),
      ("duration", Json.optional .ofFloat composition.duration)]

def extendAll? : List Dimension → Position → List Nat → Option Position
  | dimension :: dimensions, position, counter :: counters => do
      let position ← dimension.extend? position counter
      extendAll? dimensions position counters
  | _, position, _ => some position

def candidate? (composition : Composition) (counters : List Nat) : Option Position :=
  extendAll? composition.dimensions ∅ counters

def passes (position : Position) (excluder : Excluder) : Bool :=
  match excluder.axes.mapM (Position.value? position) with
  | none => false
  | some coordinates => excluder.contains coordinates

def admits (spanning : List Excluder) (position : Position) : Bool := spanning.all (passes position)

def mutate (composition : Composition) (position : Position) (ordinal : Nat) : Position :=
  composition.mutators.foldl (fun position mutator => mutator.mutate position ordinal) position

def claimAxes (index : Nat) : Keyed Nat → List String → Except Cause (Keyed Nat)
  | owners, [] => .ok owners
  | owners, axis :: axes =>
      match owners.get? axis with
      | some first => .error (.overlappingAxes axis first index)
      | none => claimAxes index (owners.insert axis index) axes

def claimLeaves : Nat → Keyed Nat → List Leaf → Except Cause (Keyed Nat)
  | _, owners, [] => .ok owners
  | index, owners, leaf :: leaves => do
      let owners ← claimAxes index owners leaf.axes
      claimLeaves (index + 1) owners leaves

def requireKnown (owners : Keyed Nat) (role : Role) (axes : List String) : Except Cause Unit :=
  match axes.find? fun axis => !owners.contains axis with
  | none => .ok ()
  | some axis => .error (.unknownAxis role axis)

/-- The dimension that owns all the axes of an excluder, if it has axes and there is one. -/
def home? (owners : Keyed Nat) (excluder : Excluder) : Option Nat :=
  match excluder.axes.filterMap owners.get? with
  | [] => none
  | first :: others => if others.all (· == first) then some first else none

def fold (owners : Keyed Nat) (excluders : List Excluder) : Nat → List Leaf → List Dimension
  | _, [] => []
  | index, leaf :: leaves =>
      .masked leaf index (excluders.filter fun excluder => home? owners excluder == some index)
        :: fold owners excluders (index + 1) leaves

def countedProduct? : Nat → List Nat → Option Nat
  | total, [] => some total
  | total, length :: lengths =>
      if total * length < countLimit then countedProduct? (total * length) lengths else none

def countAdmitted (spanning : List Excluder) : List Dimension → Position → Nat
  | [], position => if admits spanning position then 1 else 0
  | dimension :: dimensions, position =>
      dimension.length.fold (fun counter _ count =>
        match dimension.extend? position counter with
        | none => count
        | some position => count + countAdmitted spanning dimensions position) 0

/-- The number of points of a pass.  The product of the lengths must be countable even when
spanning excluders leave fewer points. -/
def countPoints (spanning : List Excluder) (dimensions : List Dimension) : Except Cause Nat :=
  let lengths := dimensions.map Dimension.length
  match countedProduct? 1 lengths with
  | none => .error (.sizeOverflow lengths)
  | some product =>
      .ok (if spanning.isEmpty || product == 0 then product
        else countAdmitted spanning dimensions ∅)

def assemble (leaves : List Leaf) (excluders : List Excluder) (mutators : List Mutator)
    (duration : Option Float) : Except Cause Composition := do
  let owners ← claimLeaves 0 ∅ leaves
  excluders.forM fun excluder => requireKnown owners .excluder excluder.axes
  mutators.forM fun mutator => requireKnown owners .mutator mutator.axes
  let dimensions := fold owners excluders 0 leaves
  let spanning := excluders.filter fun excluder => (home? owners excluder).isNone
  let size ← countPoints spanning dimensions
  return ⟨dimensions, owners, excluders, spanning, mutators, duration, size⟩

end Composition

end ScanPath
