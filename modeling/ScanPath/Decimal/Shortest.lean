/-!
# Shortest decimal digits

A finite double is `mantissa · 2 ^ exponent`, and the reals that round to it
form an interval around it.  Its shortest digits are those of the coarsest
decimal grid with a point in that interval, and of two such points the nearer.
All comparisons are exact, in natural numbers.
-/

namespace ScanPath.Decimal

/-- `mantissa · 2 ^ exponent`.  At a `narrow` value the gap below is half the gap above. -/
structure Binary where
  mantissa : Nat
  exponent : Int
  narrow : Bool
  deriving DecidableEq, Repr

def isNegative (x : Float) : Bool := x.toBits.toNat / Nat.pow 2 63 % 2 == 1

def magnitude? (x : Float) : Option Binary :=
  let bits := x.toBits.toNat
  let fraction : Nat := bits % Nat.pow 2 52
  let biased : Nat := bits / Nat.pow 2 52 % Nat.pow 2 11
  if biased = 2047 then none
  else if biased = 0 then some ⟨fraction, -1074, false⟩
  else some ⟨Nat.pow 2 52 + fraction, (biased : Int) - 1075, fraction == 0 && 1 < biased⟩

structure Digits where
  digits : Nat
  exponent : Int
  deriving DecidableEq, Repr

inductive Tie where
  | even
  | up
  deriving DecidableEq, Repr

/-- The factors by which quarters of a binary unit and units of the grid `10 ^ place` become
whole numbers of one size. -/
def scales (value : Binary) (place : Int) : Nat × Nat :=
  (Nat.pow 2 (value.exponent - 2).toNat * Nat.pow 10 (-place).toNat,
    Nat.pow 2 (2 - value.exponent).toNat * Nat.pow 10 place.toNat)

/-- Does the grid point `count · 10 ^ place` round to `value`?  The ends of the interval do
exactly when the mantissa is even. -/
def roundsTo (value : Binary) (place : Int) (count : Nat) : Bool :=
  let (quarter, unit) := scales value place
  let low := (4 * value.mantissa - if value.narrow then 1 else 2) * quarter
  let high := (4 * value.mantissa + 2) * quarter
  let point := count * unit
  if value.mantissa % 2 = 0 then decide (low ≤ point ∧ point ≤ high)
  else decide (low < point ∧ point < high)

def gridPoint? (tie : Tie) (value : Binary) (place : Int) : Option Nat :=
  let (quarter, unit) := scales value place
  let exact := 4 * value.mantissa * quarter
  let below := exact / unit
  let rest := exact % unit
  match roundsTo value place below, roundsTo value place (below + 1) with
  | false, false => none
  | true, false => some below
  | false, true => some (below + 1)
  | true, true =>
      if 2 * rest < unit then some below
      else if unit < 2 * rest then some (below + 1)
      else match tie with
        | .up => some (below + 1)
        | .even => some (if below % 2 = 0 then below else below + 1)

def leadingPlace (value : Binary) : Int :=
  let guess := Int.fdiv ((value.mantissa.log2 + value.exponent) * 30103) 100000
  let (quarter, unit) := scales value (guess + 1)
  if unit ≤ 4 * value.mantissa * quarter then guess + 1 else guess

def firstGrid (tie : Tie) (value : Binary) : Nat → Int → Digits
  | 0, place => ⟨((gridPoint? tie value place).getD 0), place⟩
  | more + 1, place =>
      match gridPoint? tie value place with
      | some digits => ⟨digits, place⟩
      | none => firstGrid tie value more (place - 1)

def Digits.trimmed : Nat → Digits → Digits
  | 0, decimal => decimal
  | fuel + 1, decimal =>
      if decimal.digits ≠ 0 ∧ decimal.digits % 10 = 0 then
        trimmed fuel ⟨decimal.digits / 10, decimal.exponent + 1⟩
      else decimal

/-- Seventeen digits always suffice. -/
def shortest (tie : Tie) (value : Binary) : Digits :=
  if value.mantissa = 0 then ⟨0, 0⟩
  else (firstGrid tie value 17 (leadingPlace value)).trimmed 18

end ScanPath.Decimal
