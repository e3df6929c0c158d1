import ScanPath.Decimal.Shortest

/-!
# Exact remainders of doubles

The remainder of a truncated division of doubles is itself a double.  It is
computed in natural numbers, so no rounding takes place.
-/

namespace ScanPath.Decimal

def scaled (mantissa : Nat) (exponent : Int) : Float :=
  .ofModel (.pack (.normalize .binary64 mantissa exponent .positive))

/-- The remainder with the sign of `x`; NaN for an infinite `x`, a zero divisor or a NaN. -/
def remainder (x divisor : Float) : Float :=
  match magnitude? x, magnitude? divisor with
  | some first, some second =>
      if second.mantissa = 0 then 0.0 / 0.0
      else
        let low := min first.exponent second.exponent
        let rest := first.mantissa * Nat.pow 2 (first.exponent - low).toNat
          % (second.mantissa * Nat.pow 2 (second.exponent - low).toNat)
        let size := scaled rest low
        if isNegative x then -size else size
  | some _, none => if divisor.isNaN then divisor else x
  | none, _ => 0.0 / 0.0

def remainderEuclid (x divisor : Float) : Float :=
  let rest := remainder x divisor
  if rest < 0.0 then rest + divisor else rest

end ScanPath.Decimal
