import ScanPath.Composition.Basic

/-!
# Passes

A pass walks over the candidates of a composition in snaking order and emits
those that the spanning excluders admit, changed by the mutators.  Ordinals
count emitted points.
-/

namespace ScanPath

structure Pass where
  composition : Composition
  odometer : Odometer
  emitted : Nat

namespace Pass

def start (composition : Composition) : Pass := ⟨composition, .start composition.wheels, 0⟩

def remaining (pass : Pass) : Nat := pass.composition.size - pass.emitted

/-- Tries at most `fuel` candidates.  A candidate that a leaf has no values for ends the call, with
the odometer already moved on. -/
def pullWithin : Nat → Pass → Option Position × Pass
  | 0, pass => (none, pass)
  | fuel + 1, pass =>
      match pass.odometer.current with
      | none => (none, pass)
      | some counters =>
          let onward := { pass with odometer := pass.odometer.advance }
          match pass.composition.candidate? (Odometer.visited pass.odometer.wheels counters) with
          | none => (none, onward)
          | some candidate =>
              if Composition.admits pass.composition.spanning candidate then
                (some (pass.composition.mutate candidate pass.emitted),
                  { onward with emitted := pass.emitted + 1 })
              else pullWithin fuel onward

def pull (pass : Pass) : Option Position × Pass :=
  pullWithin (Odometer.volume pass.odometer.wheels) pass

end Pass

end ScanPath
