/-!
# Odometers

A counter with one wheel per dimension, the last one fastest.  A wheel that
alternates runs backwards on every other pass of the wheels before it, so that
one step moves few wheels; `visited` gives the counters as they are shown.
-/

namespace ScanPath

structure Wheel where
  length : Nat
  alternate : Bool
  deriving DecidableEq, Repr, Inhabited

/-- `current` is `none` when every wheel has come round. -/
structure Odometer where
  wheels : List Wheel
  current : Option (List Nat)
  deriving DecidableEq, Repr

namespace Odometer

def start (wheels : List Wheel) : Odometer :=
  if wheels.isEmpty || wheels.any fun wheel => wheel.length == 0 then ⟨wheels, none⟩
  else ⟨wheels, some (wheels.map fun _ => 0)⟩

def increment : List Wheel → List Nat → Option (List Nat)
  | wheel :: wheels, counter :: counters =>
      match increment wheels counters with
      | some counters => some (counter :: counters)
      | none =>
          if counter + 1 < wheel.length then some ((counter + 1) :: counters.map fun _ => 0)
          else none
  | _, _ => none

def advance (odometer : Odometer) : Odometer :=
  { odometer with current := odometer.current.bind (increment odometer.wheels) }

def volume : List Wheel → Nat
  | [] => 1
  | wheel :: wheels => wheel.length * volume wheels

/-- `outer` is the number of the pass: the flat index of the counters before this wheel, of which
only the parity counts. -/
def visitedFrom : UInt64 → List Wheel → List Nat → List Nat
  | outer, wheel :: wheels, counter :: counters =>
      (if wheel.alternate && outer % 2 == 1 then wheel.length - 1 - counter else counter)
        :: visitedFrom (outer * wheel.length.toUInt64 + counter.toUInt64) wheels counters
  | _, _, _ => []

def visited (wheels : List Wheel) (counters : List Nat) : List Nat :=
  visitedFrom 0 wheels counters

end Odometer

end ScanPath
