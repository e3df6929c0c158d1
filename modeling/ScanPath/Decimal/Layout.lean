import ScanPath.Decimal.Shortest

/-!
# Written numbers

How the shortest digits of a double are set out: positionally or with an
exponent, with or without a final `.0`.
-/

namespace ScanPath.Decimal

/-- The choices of one written form.  `positional` says at which exponents of the first digit no
exponent is written; a whole number ends in `.0` when `point` is set. -/
structure Layout where
  tie : Tie
  positional : Int → Bool
  point : Bool

def canonical : Layout :=
  ⟨.even, fun place => decide (-5 ≤ place ∧ place < 16), true⟩

def plain : Layout := ⟨.up, fun _ => true, false⟩

def zeros (count : Nat) : String := String.ofList (List.replicate count '0')

def positionalText (point : Bool) (digits : List Char) (place : Int) : String :=
  if place < 0 then
    "0." ++ zeros (-place - 1).toNat ++ String.ofList digits
  else
    let whole := place.toNat + 1
    if digits.length ≤ whole then
      String.ofList digits ++ zeros (whole - digits.length) ++ (if point then ".0" else "")
    else
      String.ofList (digits.take whole) ++ "." ++ String.ofList (digits.drop whole)

def exponentText (digits : List Char) (place : Int) : String :=
  let fraction := digits.drop 1
  String.ofList (digits.take 1)
    ++ (if fraction.isEmpty then "" else "." ++ String.ofList fraction)
    ++ (if place < 0 then "e-" else "e+") ++ toString place.natAbs

def Layout.text (layout : Layout) (x : Float) : String :=
  match magnitude? x with
  | none => if x.isNaN then "NaN" else if isNegative x then "-inf" else "inf"
  | some value =>
      let decimal := shortest layout.tie value
      let digits := Nat.toDigits 10 decimal.digits
      let place := decimal.exponent + digits.length - 1
      (if isNegative x then "-" else "")
        ++ (if layout.positional place then positionalText layout.point digits place
            else exponentText digits place)

end ScanPath.Decimal
