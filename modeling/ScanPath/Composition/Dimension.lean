import ScanPath.Excluder
import ScanPath.Leaf.Basic

/-!
# Dimensions

The axes of one leaf share one counter.  Excluders that look at nothing but
these axes are folded into the dimension as a mask: the counter then runs over
the points of the leaf that all of them keep.
-/

namespace ScanPath

/-- `generator` is the place of the leaf among the leaves of its composition; `kept` lists the
points that survive the mask, if there is one. -/
structure Dimension where
  leaf : Leaf
  generator : Nat
  kept : Option (Array Nat)
  deriving Inhabited

namespace Dimension

def whole (leaf : Leaf) (generator : Nat) : Dimension := ⟨leaf, generator, none⟩

def axes (dimension : Dimension) : List String := dimension.leaf.axes

def alternate (dimension : Dimension) : Bool := dimension.leaf.alternate

def length (dimension : Dimension) : Nat :=
  match dimension.kept with
  | none => dimension.leaf.size
  | some kept => kept.size

def isMasked (dimension : Dimension) : Bool := dimension.kept.isSome

def pointIndex? (dimension : Dimension) (counter : Nat) : Option Nat :=
  match dimension.kept with
  | none => some counter
  | some kept => kept[counter]?

def extend? (dimension : Dimension) (position : Position) (counter : Nat) : Option Position := do
  let index ← dimension.pointIndex? counter
  let values ← dimension.leaf.valuesAt index
  return Position.insertAll position dimension.axes values counter

def slots (axes : List String) (excluder : Excluder) : List Nat :=
  excluder.axes.filterMap fun axis => axes.idxOf? axis

def coordinates (values : List Float) (slots : List Nat) : List Float :=
  slots.filterMap fun slot => values[slot]?

/-- Does every excluder keep the point, each asked for its own axes in its own order? -/
def keeps (leaf : Leaf) (tests : List (Excluder × List Nat)) (index : Nat) : Bool :=
  match leaf.valuesAt index with
  | none => false
  | some values => tests.all fun (excluder, slots) => excluder.contains (coordinates values slots)

def mask (leaf : Leaf) (excluders : List Excluder) : Option (Array Nat) :=
  if excluders.isEmpty then none
  else
    let tests := excluders.map fun excluder => (excluder, slots leaf.axes excluder)
    some ((Array.range leaf.size).filter (keeps leaf tests))

def masked (leaf : Leaf) (generator : Nat) (excluders : List Excluder) : Dimension :=
  ⟨leaf, generator, mask leaf excluders⟩

end Dimension

end ScanPath
