import ScanPath.Descriptor
import ScanPath.Leaf.Basic
import ScanPath.Position
import ScanPath.Random

/-!
# Mutators

A mutator changes the values of an emitted position, given its ordinal.  The
random offset draws one number per listed axis from the substream of its seed
and the ordinal, so every pass over a scan gives the same points.
-/

namespace ScanPath

structure Mutator where
  axes : List String
  mutate : Position → Nat → Position
  descriptor : Descriptor
  deriving Inhabited

structure RandomOffset where
  seed : Nat
  axes : List String
  maxOffset : Keyed Float

namespace RandomOffset

def kind : String := "random-offset"

def encodeFields (offset : RandomOffset) : List (String × Json) :=
  [("seed", .ofNat offset.seed), ("axes", .strings offset.axes),
    ("max_offset", .object (offset.maxOffset.entries.map fun (axis, bound) => (axis, .ofFloat bound)))]

def decode? (document : Document) : Option RandomOffset := do
  let record ← document.record? .inner ["seed", "axes", "max_offset"]
  return {
    seed := ← record.require? "seed" Document.count?
    axes := ← record.require? "axes" (Document.listOf? .inner Document.text?)
    maxOffset := ← record.require? "max_offset" (Document.tableOf? .inner Document.float?) }

def checkAxis (offset : RandomOffset) (axis : String) : Except Cause Unit :=
  match offset.maxOffset.get? axis with
  | none => .error (.missingOffset axis)
  | some bound => if bound.isFinite && 0.0 ≤ bound then .ok () else .error (.badOffset axis bound)

def check (offset : RandomOffset) : Except Cause Unit :=
  if offset.axes.isEmpty then .error .noOffsetAxes else offset.axes.forM offset.checkAxis

/-- One draw per axis, whether or not the position carries it. -/
def perturb (bounds : Keyed Float) : List String → Random.Stream → Position → Position
  | [], _, position => position
  | axis :: axes, stream, position =>
      let (draw, stream) := stream.symmetricUnit
      let position :=
        match bounds.get? axis with
        | none => position
        | some bound => position.offset axis (bound * draw)
      perturb bounds axes stream position

def mutate (offset : RandomOffset) (position : Position) (ordinal : Nat) : Position :=
  perturb offset.maxOffset offset.axes
    (.ofSubstream offset.seed.toUInt64 ordinal.toUInt64) position

def mutator (offset : RandomOffset) : Mutator where
  axes := offset.axes
  mutate := offset.mutate
  descriptor := .ofFields kind offset.encodeFields

def build (offset : RandomOffset) : Except Cause Mutator := do
  offset.check
  return offset.mutator

end RandomOffset

end ScanPath
