/-!
# Decimal numbers read as doubles

A decimal text is a sign, digits around an optional point and an optional
exponent.  Its value is the double nearest to the number it denotes.
-/

namespace ScanPath.Decimal

/-- The double nearest to `± mantissa · 10 ^ exponent`.  Exponents far outside the range of
doubles are cut short: they give an infinity or zero whatever the mantissa. -/
def nearest (negative : Bool) (mantissa : Nat) (exponent : Int) : Float :=
  let size : Float :=
    if mantissa = 0 then 0.0
    else
      let leading := exponent + (Nat.toDigits 10 mantissa).length
      if 400 < leading then 1.0 / 0.0
      else if leading < -400 then 0.0
      else Float.ofScientific mantissa (decide (exponent < 0)) exponent.natAbs
  if negative then -size else size

def ofDigits (digits : List Char) : Nat :=
  digits.foldl (fun value digit => 10 * value + (digit.toNat - '0'.toNat)) 0

def exponent? : List Char → Option Int
  | [] => some 0
  | mark :: rest =>
      if mark = 'e' ∨ mark = 'E' then
        let (negative, digits) :=
          match rest with
          | '-' :: digits => (true, digits)
          | '+' :: digits => (false, digits)
          | digits => (false, digits)
        if digits.isEmpty || !digits.all Char.isDigit then none
        else some (if negative then -(ofDigits digits : Int) else ofDigits digits)
      else none

structure Numeral where
  negative : Bool
  mantissa : Nat
  exponent : Int

/-- Reads `digits [. digits] [e [+-] digits]` with a digit on at least one side of the point: the
mantissa and the exponent. -/
def unsigned? (text : List Char) : Option (Nat × Int) :=
  let whole := text.takeWhile Char.isDigit
  let afterWhole := text.dropWhile Char.isDigit
  let (fraction, tail) :=
    match afterWhole with
    | '.' :: rest => (rest.takeWhile Char.isDigit, rest.dropWhile Char.isDigit)
    | rest => ([], rest)
  if whole.isEmpty && fraction.isEmpty then none
  else
    (exponent? tail).map fun exponent =>
      (ofDigits (whole ++ fraction), exponent - fraction.length)

def numeral? (text : String) : Option Numeral :=
  let (negative, unsigned) :=
    match text.toList with
    | '-' :: rest => (true, rest)
    | '+' :: rest => (false, rest)
    | rest => (false, rest)
  (unsigned? unsigned).map fun (mantissa, exponent) => ⟨negative, mantissa, exponent⟩

def read? (text : String) : Option Float :=
  (numeral? text).map fun numeral => nearest numeral.negative numeral.mantissa numeral.exponent

end ScanPath.Decimal
