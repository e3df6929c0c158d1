import ScanPath.Decimal.Remainder
import ScanPath.Proofs.Binary64

/-!
# What is not a number

An operation on something that is not a number has no number as its result, and
every comparison with it fails.  So a test that accepts by a comparison refuses
it, and a test that refuses by a comparison lets it pass.
-/

namespace ScanPath

open Float.Model Float.Model.UnpackedFloat

def Strict (operation : UnpackedFloat → UnpackedFloat → UnpackedFloat) : Prop :=
  ∀ first second, first = .notANumber ∨ second = .notANumber →
    operation first second = .notANumber

theorem Strict.isNaN {operation : UnpackedFloat → UnpackedFloat → UnpackedFloat}
    (hstrict : Strict operation) {x y : Float} (h : x.isNaN = true ∨ y.isNaN = true) :
    (Float.ofModel (.pack (operation x.toModel.unpack y.toModel.unpack))).isNaN = true := by
  rw [hstrict _ _ (h.imp isNaN_iff.mp isNaN_iff.mp)]
  rfl

section

variable {x y : Float} (h : x.isNaN = true ∨ y.isNaN = true)

include h

theorem isNaN_add : (x + y).isNaN = true := by
  have hstrict : Strict (UnpackedFloat.add .binary64) := by
    rintro first second (rfl | rfl)
    · rfl
    · cases first <;> rfl
  exact hstrict.isNaN h

theorem isNaN_sub : (x - y).isNaN = true := by
  have hstrict : Strict (UnpackedFloat.sub .binary64) := by
    rintro first second (rfl | rfl)
    · rfl
    · cases first <;> rfl
  exact hstrict.isNaN h

theorem isNaN_mul : (x * y).isNaN = true := by
  have hstrict : Strict (UnpackedFloat.mul .binary64) := by
    rintro first second (rfl | rfl)
    · rfl
    · cases first <;> rfl
  exact hstrict.isNaN h

end

theorem isNaN_div {x : Float} (h : x.isNaN = true) (y : Float) : (x / y).isNaN = true := by
  have hstrict : Strict (UnpackedFloat.div .binary64) := by
    rintro first second (rfl | rfl)
    · rfl
    · cases first <;> rfl
  exact hstrict.isNaN (.inl h)

theorem isNaN_abs {x : Float} (h : x.isNaN = true) : x.abs.isNaN = true := by
  change (Float.ofModel (.pack (UnpackedFloat.abs x.toModel.unpack))).isNaN = true
  rw [isNaN_iff.mp h]
  rfl

theorem isNaN_sqrt {x : Float} (h : x.isNaN = true) : x.sqrt.isNaN = true := by
  change (Float.ofModel (.pack (UnpackedFloat.sqrt .binary64 x.toModel.unpack))).isNaN = true
  rw [isNaN_iff.mp h]
  rfl

theorem not_lt_isNaN (x : Float) {y : Float} (h : y.isNaN = true) : ¬ x < y := by
  have hunpack : y.toModel.unpack = .notANumber := isNaN_iff.mp h
  rw [lt_iff_compare, hunpack]
  cases x.toModel.unpack <;> simp [UnpackedFloat.compare]

theorem not_le_of_isNaN {x : Float} (h : x.isNaN = true) (y : Float) : ¬ x ≤ y := by
  have hunpack : x.toModel.unpack = .notANumber := isNaN_iff.mp h
  rw [le_iff_compare, hunpack]
  simp [UnpackedFloat.compare]

theorem magnitude?_of_isNaN {x : Float} (h : x.isNaN = true) : Decimal.magnitude? x = none := by
  have heq : x = 0.0 / 0.0 := eq_of_unpack_eq (isNaN_iff.mp h)
  rw [heq]
  rfl

theorem isNaN_remainderEuclid {x : Float} (h : x.isNaN = true) (divisor : Float) :
    (Decimal.remainderEuclid x divisor).isNaN = true := by
  have hrest : (Decimal.remainder x divisor).isNaN = true := by
    have hundefined : (0.0 / 0.0 : Float).isNaN = true := by decide
    rw [Decimal.remainder, magnitude?_of_isNaN h]
    cases Decimal.magnitude? divisor <;> exact hundefined
  simp only [Decimal.remainderEuclid, if_neg (not_lt_of_isNaN hrest 0.0)]
  exact hrest

end ScanPath
