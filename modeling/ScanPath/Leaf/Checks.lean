import ScanPath.Cause
import ScanPath.Text.Blank

/-!
# Checks on leaf parameters

Each check refuses the first offender it finds and says which requirement it
breaks.  `kind` is the sort of leaf the parameters are meant for.
-/

namespace ScanPath.Leaf

/-- The axes from `position` on are neither blank nor among `earlier` ones. -/
def requireAxesFrom (kind : String) : List String → Nat → List String → Except Cause Unit
  | _, _, [] => .ok ()
  | earlier, position, axis :: axes =>
      if Text.isBlank axis then .error (.blankAxis kind position)
      else if axis ∈ earlier then .error (.repeatedAxis kind axis)
      else requireAxesFrom kind (axis :: earlier) (position + 1) axes

def requireAxes (kind : String) (axes : List String) : Except Cause Unit :=
  if axes.isEmpty then .error (.noAxes kind) else requireAxesFrom kind [] 0 axes

def requireLength (kind field : String) (expected actual : Nat) : Except Cause Unit :=
  if expected = actual then .ok () else .error (.lengthMismatch kind field expected actual)

def requireCount (kind field : String) (count : Nat) : Except Cause Unit :=
  if 0 < count then .ok () else .error (.zeroCount kind field)

def requireFinite (kind field : String) (values : List Float) : Except Cause Unit :=
  match values.find? fun value => !value.isFinite with
  | none => .ok ()
  | some value => .error (.nonFinite kind field value)

def requirePositive (kind field : String) (value : Float) : Except Cause Unit := do
  requireFinite kind field [value]
  if 0.0 < value then .ok () else .error (.nonPositive kind field value)

end ScanPath.Leaf
