import ScanPath.Composition.Composer
import ScanPath.Composition.Pass
import ScanPath.Lookahead
import ScanPath.Projection

/-!
# Scans

A scan is a composition together with a pass over it whose points are projected
and looked at one ahead.  What is known about the composition can be asked at
any time.
-/

namespace ScanPath

structure ProjectedPass where
  pass : Pass
  projector : Projector

namespace ProjectedPass

def start (composition : Composition) (layout : PairLayout) : ProjectedPass :=
  ⟨.start composition, .ofComposition composition layout⟩

def remaining (points : ProjectedPass) : Nat := points.pass.remaining

def pull (points : ProjectedPass) : Option PointShape × ProjectedPass :=
  let (position, pass) := points.pass.pull
  (position.map points.projector.project, { points with pass })

end ProjectedPass

structure Scan where
  composition : Composition
  layout : PairLayout
  points : Lookahead ProjectedPass PointShape

namespace Scan

def ofComposition (composition : Composition) (layout : PairLayout) : Scan :=
  ⟨composition, layout, .start ProjectedPass.pull (.start composition layout)⟩

def compound (inputs : List Composer.Input) (excluders : List Excluder) (mutators : List Mutator)
    (duration : Option Float) : Except Cause Scan := do
  let composition ← (Composer.ofParts inputs excluders mutators duration).prepare.1
  return ofComposition composition .fastFirst

/-- A scan over one leaf; pairs keep the order in which the leaf declares its axes. -/
def single (leaf : Leaf) : Except Cause Scan := do
  let composition ← (Composer.ofParts [.leaf leaf] [] [] none).prepare.1
  return ofComposition composition .declared

def fresh (scan : Scan) : Scan := ofComposition scan.composition scan.layout

def hasNext (scan : Scan) : Bool × Scan :=
  let (more, points) := scan.points.hasNext
  (more, { scan with points })

def next (scan : Scan) : Except Cause PointShape × Scan :=
  let (point, points) := scan.points.next
  (point, { scan with points })

def isEnded (scan : Scan) : Bool := scan.points.isEnded

/-- At most `limit` points and the scan after them.  After the last of them nothing more is asked
of the scan. -/
def take : Nat → Scan → List PointShape × Scan
  | 0, scan => ([], scan)
  | limit + 1, scan =>
      match scan.hasNext with
      | (false, scan) => ([], scan)
      | (true, scan) =>
          match scan.next with
          | (.error _, scan) => ([], scan)
          | (.ok point, scan) =>
              let (points, scan) := take limit scan
              (point :: points, scan)

end Scan

end ScanPath
