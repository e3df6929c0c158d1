import ScanPath.Decimal.Remainder
import ScanPath.Proofs.Binary64

/-!
# Operations that do not see the sign of a zero

Two floats are the same number if they are equal or both a zero.  Sums,
differences and products of the same numbers are the same numbers, and
comparisons of them have one outcome.  A quotient is safe in its dividend only:
divided by zeros of different signs a number gives different infinities.
-/

namespace ScanPath

open Float.Model Float.Model.UnpackedFloat

def withoutZeroSign : UnpackedFloat → UnpackedFloat
  | .zero _ => .zero .positive
  | other => other

/-- Equal or both a zero. -/
def SameNumber (x y : Float) : Prop :=
  withoutZeroSign x.toModel.unpack = withoutZeroSign y.toModel.unpack

theorem withoutZeroSign_eq_iff {first second : UnpackedFloat} :
    withoutZeroSign first = withoutZeroSign second ↔
      first = second ∨ ∃ sign other, first = .zero sign ∧ second = .zero other := by
  cases first <;> cases second <;> simp [withoutZeroSign]

namespace SameNumber

@[simp] theorem refl (x : Float) : SameNumber x x := rfl

theorem symm {x y : Float} (h : SameNumber x y) : SameNumber y x := Eq.symm h

theorem zeros : SameNumber 0.0 (-0.0) := rfl

theorem eq_or_zeros {x y : Float} (h : SameNumber x y) :
    x = y ∨ x = 0.0 ∧ y = -0.0 ∨ x = -0.0 ∧ y = 0.0 := by
  rcases withoutZeroSign_eq_iff.mp h with heq | ⟨sign, other, hx, hy⟩
  · exact .inl (eq_of_unpack_eq heq)
  · apply eq_or_zeros_of_beq
    rw [beq_iff_compare, hx, hy]
    rfl

theorem of_beq {x y : Float} (h : (x == y) = true) : SameNumber x y := by
  rcases eq_or_zeros_of_beq h with rfl | ⟨rfl, rfl⟩ | ⟨rfl, rfl⟩ <;> rfl

theorem pack {first second : UnpackedFloat}
    (h : withoutZeroSign first = withoutZeroSign second) :
    SameNumber (.ofModel (.pack first)) (.ofModel (.pack second)) := by
  rcases withoutZeroSign_eq_iff.mp h with rfl | ⟨sign, other, rfl, rfl⟩
  · rfl
  · cases sign <;> cases other <;> rfl

def Insensitive (operation : UnpackedFloat → UnpackedFloat → UnpackedFloat) : Prop :=
  ∀ first second, withoutZeroSign (operation first second) =
    withoutZeroSign (operation (withoutZeroSign first) (withoutZeroSign second))

variable {x x' y y' : Float}

theorem of_insensitive (operation : UnpackedFloat → UnpackedFloat → UnpackedFloat)
    (h : Insensitive operation) (hx : SameNumber x x') (hy : SameNumber y y') :
    SameNumber (.ofModel (.pack (operation x.toModel.unpack y.toModel.unpack)))
      (.ofModel (.pack (operation x'.toModel.unpack y'.toModel.unpack))) := by
  apply pack
  rw [h, hx, hy, ← h]

theorem add (hx : SameNumber x x') (hy : SameNumber y y') : SameNumber (x + y) (x' + y') := by
  apply of_insensitive (UnpackedFloat.add .binary64) _ hx hy
  intro first second
  cases first with
  | zero sign => cases second with
    | zero other => cases sign <;> cases other <;> rfl
    | _ => rfl
  | _ => cases second <;> rfl

theorem sub (hx : SameNumber x x') (hy : SameNumber y y') : SameNumber (x - y) (x' - y') := by
  apply of_insensitive (UnpackedFloat.sub .binary64) _ hx hy
  intro first second
  cases first with
  | zero sign => cases second with
    | zero other => cases sign <;> cases other <;> rfl
    | _ => rfl
  | _ => cases second <;> rfl

theorem mul (hx : SameNumber x x') (hy : SameNumber y y') : SameNumber (x * y) (x' * y') := by
  apply of_insensitive (UnpackedFloat.mul .binary64) _ hx hy
  intro first second
  cases first <;> cases second <;> rfl

theorem div (hx : SameNumber x x') (y : Float) : SameNumber (x / y) (x' / y) := by
  apply pack
  rcases withoutZeroSign_eq_iff.mp hx with heq | ⟨sign, other, hzero, hzero'⟩
  · rw [heq]
  · rw [hzero, hzero']
    cases y.toModel.unpack <;> rfl

theorem neg (hx : SameNumber x x') : SameNumber (-x) (-x') := by
  rcases hx.eq_or_zeros with rfl | ⟨rfl, rfl⟩ | ⟨rfl, rfl⟩ <;> rfl

theorem abs (hx : SameNumber x x') : SameNumber x.abs x'.abs := by
  rcases hx.eq_or_zeros with rfl | ⟨rfl, rfl⟩ | ⟨rfl, rfl⟩ <;> rfl

theorem compare_withoutZeroSign (first second : UnpackedFloat) :
    UnpackedFloat.compare (withoutZeroSign first) (withoutZeroSign second) =
      UnpackedFloat.compare first second := by
  rcases first with sign | _ | sign | sign <;> rcases second with other | _ | other | other <;>
    first | rfl | (cases sign <;> cases other <;> rfl)

theorem compare_eq (hx : SameNumber x x') (hy : SameNumber y y') :
    UnpackedFloat.compare x.toModel.unpack y.toModel.unpack =
      UnpackedFloat.compare x'.toModel.unpack y'.toModel.unpack := by
  rw [← compare_withoutZeroSign, hx, hy, compare_withoutZeroSign]

theorem lt_iff (hx : SameNumber x x') (hy : SameNumber y y') : x < y ↔ x' < y' := by
  rw [lt_iff_compare, lt_iff_compare, compare_eq hx hy]

theorem le_iff (hx : SameNumber x x') (hy : SameNumber y y') : x ≤ y ↔ x' ≤ y' := by
  rw [le_iff_compare, le_iff_compare, compare_eq hx hy]

theorem decide_lt (hx : SameNumber x x') (hy : SameNumber y y') :
    decide (x < y) = decide (x' < y') :=
  decide_eq_decide.mpr (hx.lt_iff hy)

theorem decide_le (hx : SameNumber x x') (hy : SameNumber y y') :
    decide (x ≤ y) = decide (x' ≤ y') :=
  decide_eq_decide.mpr (hx.le_iff hy)

theorem isFinite_eq (hx : SameNumber x x') : x.isFinite = x'.isFinite := by
  rcases hx.eq_or_zeros with rfl | ⟨rfl, rfl⟩ | ⟨rfl, rfl⟩ <;> rfl

theorem remainderEuclid (hx : SameNumber x x') (divisor : Float) :
    SameNumber (Decimal.remainderEuclid x divisor) (Decimal.remainderEuclid x' divisor) := by
  have hzeros : SameNumber (Decimal.remainder 0.0 divisor) (Decimal.remainder (-0.0) divisor) := by
    have hplus : Decimal.magnitude? 0.0 = some ⟨0, -1074, false⟩ := rfl
    have hminus : Decimal.magnitude? (-0.0) = some ⟨0, -1074, false⟩ := rfl
    unfold Decimal.remainder
    rw [hplus, hminus]
    cases Decimal.magnitude? divisor with
    | none =>
        cases divisor.isNaN
        · exact zeros
        · rfl
    | some size =>
        simp only [Nat.zero_mul, Nat.zero_mod]
        split
        · rfl
        · exact zeros
  have hrest : SameNumber (Decimal.remainder x divisor) (Decimal.remainder x' divisor) := by
    rcases hx.eq_or_zeros with rfl | ⟨rfl, rfl⟩ | ⟨rfl, rfl⟩
    · rfl
    · exact hzeros
    · exact hzeros.symm
  simp only [Decimal.remainderEuclid, hrest.lt_iff (.refl 0.0)]
  split
  · exact hrest.add (.refl divisor)
  · exact hrest

end SameNumber

/-- Only a difference of zeros shows the sign of the zero that is taken off. -/
theorem sub_eq_of_sameNumber {x y y' : Float} (h : SameNumber y y') (hx : x ≠ -0.0) :
    x - y = x - y' := by
  rcases withoutZeroSign_eq_iff.mp h with heq | ⟨sign, other, hy, hy'⟩
  · rw [eq_of_unpack_eq heq]
  · apply congrArg (fun result => Float.ofModel (.pack result))
    rw [hy, hy']
    cases hunpack : x.toModel.unpack with
    | zero zeroSign =>
        cases zeroSign with
        | negative => exact absurd (eq_of_unpack_eq hunpack) hx
        | positive => cases sign <;> cases other <;> rfl
    | _ => rfl

theorem sub_eq_of_not_sameNumber {x x' y y' : Float} (hx : SameNumber x x')
    (hy : SameNumber y y') (hne : ¬ SameNumber x y) : x - y = x' - y' := by
  apply congrArg (fun result => Float.ofModel (.pack result))
  rw [SameNumber] at hne
  rcases withoutZeroSign_eq_iff.mp hx with heq | ⟨sign, sign', hzero, hzero'⟩
  · rcases withoutZeroSign_eq_iff.mp hy with heq' | ⟨other, other', hother, hother'⟩
    · rw [heq, heq']
    · rw [hother] at hne
      rw [← heq, hother, hother']
      cases hunpack : x.toModel.unpack with
      | zero sign => exact absurd (by rw [hunpack]; rfl) hne
      | _ => rfl
  · rw [hzero] at hne
    rcases withoutZeroSign_eq_iff.mp hy with heq' | ⟨other, other', hother, hother'⟩
    · rw [hzero, hzero', ← heq']
      cases hunpack : y.toModel.unpack with
      | zero sign => exact absurd (by rw [hunpack]; rfl) hne
      | _ => rfl
    · exact absurd (by rw [hother]; rfl) hne

end ScanPath
