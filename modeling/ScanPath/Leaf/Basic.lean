import ScanPath.Descriptor
import ScanPath.Document
import ScanPath.Position

/-!
# Leaves

A leaf produces the values of axes that move together, one list of values per
index.  Nothing can go wrong once a leaf is built: what it is made from is
checked before.
-/

namespace ScanPath

structure Leaf where
  axes : List String
  units : List String
  size : Nat
  alternate : Bool
  valuesAt : Nat → Option (List Float)
  descriptor : Descriptor
  deriving Inhabited

/-- The number of points of a pass and every index is below this bound. -/
def countLimit : Nat := UInt64.size

def countToFloat (count : Nat) : Float := count.toUInt64.toFloat

structure LeafPass where
  leaf : Leaf
  next : Nat

namespace LeafPass

def start (leaf : Leaf) : LeafPass := ⟨leaf, 0⟩

def remaining (pass : LeafPass) : Nat := pass.leaf.size - pass.next

def step? (pass : LeafPass) : Option (Position × LeafPass) :=
  (pass.leaf.valuesAt pass.next).map fun values =>
    (Position.insertAll ∅ pass.leaf.axes values pass.next, { pass with next := pass.next + 1 })

def take : Nat → LeafPass → List Position × LeafPass
  | 0, pass => ([], pass)
  | count + 1, pass =>
      match pass.step? with
      | none => ([], pass)
      | some (position, pass) =>
          let (positions, pass) := take count pass
          (position :: positions, pass)

end LeafPass

end ScanPath
