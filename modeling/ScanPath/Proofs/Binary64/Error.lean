import ScanPath.Proofs.Binary64.Bounds
import ScanPath.Proofs.Binary64.Order

/-!
# Errors of rounding

Rounding moves a number by at most half a unit of its last place, which is a
fixed part of the number or, near zero, a fixed amount.  A number that a float
stands for is not moved at all, and two floats that stand for the same number
compare equal.
-/

namespace ScanPath

open Float.Model Float.Model.UnpackedFloat

/-- A rounded float has the sign of the number, so the error is that of the sizes. -/
theorem Rounded.abs_sub_le {x : Float} {value : ℝ} (h : Rounded x value)
    (hfinite : x.isFinite = true) : |(exact x : ℝ) - value| ≤ roundOff value := by
  have hsize := h.abs_exact hfinite
  have hsigns : |(exact x : ℝ) - value| = |nearest |value| - (|value|)| := by
    rw [← hsize]
    rcases le_total 0 value with hnonneg | hnonpos
    · have hexact : |(exact x : ℝ)| = exact x :=
        abs_of_nonneg (Rat.cast_nonneg.mpr (h.nonneg hnonneg))
      rw [hexact, abs_of_nonneg hnonneg]
    · have hexact : |(exact x : ℝ)| = -exact x :=
        abs_of_nonpos (Rat.cast_nonpos.mpr (h.nonpos hnonpos))
      rw [hexact, abs_of_nonpos hnonpos, neg_sub_neg, abs_sub_comm]
  rw [hsigns, roundOff]
  rcases (abs_nonneg value).eq_or_lt with hzero | hpos
  · rw [← hzero, nearest_zero, sub_zero, abs_zero, zero_div, zero_add]
    exact leastHalf_pos.le
  · exact (abs_nearest_sub_le hpos.le).trans (half_unit_le hpos)

theorem Rounded.exact_eq {x y : Float} {value : ℝ} (hx : Rounded x value) (hy : Rounded y value)
    (hfinite : y.isFinite = true) : x.isFinite = true ∧ exact x = exact y := by
  have hx' : x.isFinite = true := hx.isFinite_iff.mpr (hy.isFinite_iff.mp hfinite)
  refine ⟨hx', ?_⟩
  have hsize : |(exact x : ℝ)| = |(exact y : ℝ)| :=
    (hx.abs_exact hx').trans (hy.abs_exact hfinite).symm
  rw [← Rat.cast_inj (α := ℝ)]
  rcases le_total 0 value with hnonneg | hnonpos
  · rwa [abs_of_nonneg (Rat.cast_nonneg.mpr (hx.nonneg hnonneg)),
      abs_of_nonneg (Rat.cast_nonneg.mpr (hy.nonneg hnonneg))] at hsize
  · rwa [abs_of_nonpos (Rat.cast_nonpos.mpr (hx.nonpos hnonpos)),
      abs_of_nonpos (Rat.cast_nonpos.mpr (hy.nonpos hnonpos)), neg_inj] at hsize

theorem Fits.eq_of_value_eq {mantissa mantissa' : ℕ} {exponent exponent' : ℤ}
    (h : Fits mantissa exponent) (h' : Fits mantissa' exponent')
    (heq : (mantissa * 2 ^ exponent : ℝ) = mantissa' * 2 ^ exponent') :
    mantissa = mantissa' ∧ exponent = exponent' := by
  cases hcompare : (compare exponent exponent').then (compare mantissa mantissa') with
  | lt => exact absurd heq (h.lt_of_compare h' hcompare).ne
  | eq =>
      rw [Ordering.then_eq_eq] at hcompare
      exact ⟨compare_eq_iff_eq.mp hcompare.2, compare_eq_iff_eq.mp hcompare.1⟩
  | gt =>
      have hswapped : (compare exponent' exponent).then (compare mantissa' mantissa) = .lt := by
        rw [← Int.compare_swap, ← Nat.compare_swap, ← Ordering.swap_then, hcompare]
        rfl
      exact absurd heq (h'.lt_of_compare h hswapped).ne'

theorem beq_of_exact_eq {x y : Float} (hx : x.isFinite = true) (hy : y.isFinite = true)
    (h : exact x = exact y) : (x == y) = true := by
  rw [← Rat.cast_inj (α := ℝ)] at h
  rw [beq_iff_compare]
  rcases unpack_of_isFinite hx with ⟨sign, hx⟩ | ⟨sign, mantissa, exponent, hpos, hx⟩ <;>
    rcases unpack_of_isFinite hy with ⟨other, hy⟩ | ⟨other, mantissa', exponent', hpos', hy⟩
  · rw [hx, hy]
    rfl
  · rw [exact_eq_zero hx, Rat.cast_zero, exact_eq_signed hy] at h
    have hsize : |signed other (mantissa' * 2 ^ exponent')| = 0 := by rw [← h, abs_zero]
    rw [abs_signed, abs_eq_zero] at hsize
    exact absurd hsize (mul_pos (Nat.cast_pos.mpr hpos') (zpow_pos two_pos _)).ne'
  · rw [exact_eq_zero hy, Rat.cast_zero, exact_eq_signed hx] at h
    have hsize : |signed sign (mantissa * 2 ^ exponent)| = 0 := by rw [h, abs_zero]
    rw [abs_signed, abs_eq_zero] at hsize
    exact absurd hsize (mul_pos (Nat.cast_pos.mpr hpos) (zpow_pos two_pos _)).ne'
  · have hpositive : (0 : ℝ) < mantissa * 2 ^ exponent :=
      mul_pos (Nat.cast_pos.mpr hpos) (zpow_pos two_pos _)
    have hpositive' : (0 : ℝ) < mantissa' * 2 ^ exponent' :=
      mul_pos (Nat.cast_pos.mpr hpos') (zpow_pos two_pos _)
    rw [exact_eq_signed hx, exact_eq_signed hy] at h
    have hsigns : sign = other := by
      cases sign <;> cases other <;> first | rfl | (simp only [signed] at h; linarith)
    subst hsigns
    have hsize : (mantissa * 2 ^ exponent : ℝ) = mantissa' * 2 ^ exponent' := by
      rw [← abs_of_pos hpositive, ← abs_of_pos hpositive', ← abs_signed sign, h, abs_signed]
    obtain ⟨rfl, rfl⟩ := (fits_of_unpack_eq hx).1.eq_of_value_eq (fits_of_unpack_eq hy).1 hsize
    rw [hx, hy]
    cases sign <;> simp [UnpackedFloat.compare]

theorem unpack_neg (x : Float) : (-x).toModel.unpack = x.toModel.unpack.neg := by
  have hneg : (-x).toModel = Float.Model.pack x.toModel.unpack.neg := rfl
  rw [hneg]
  cases hunpack : x.toModel.unpack with
  | notANumber => rfl
  | infinity sign => cases sign <;> rfl
  | zero sign => exact unpack_pack_zero (-sign)
  | finite sign mantissa exponent hpos =>
      obtain ⟨hfits, hhigh⟩ := fits_of_unpack_eq hunpack
      exact hfits.unpack_pack hpos hhigh

theorem exact_neg {x : Float} (h : x.isFinite = true) :
    (-x).isFinite = true ∧ exact (-x) = -exact x := by
  have hneg := unpack_neg x
  rcases unpack_of_isFinite h with ⟨sign, hunpack⟩ | ⟨sign, mantissa, exponent, hpos, hunpack⟩ <;>
    rw [hunpack] at hneg
  · refine ⟨congrArg UnpackedFloat.isFinite hneg, ?_⟩
    rw [exact_eq_zero hneg, exact_eq_zero hunpack, neg_zero]
  · refine ⟨congrArg UnpackedFloat.isFinite hneg, ?_⟩
    rw [← Rat.cast_inj (α := ℝ), Rat.cast_neg, exact_eq_signed hneg, exact_eq_signed hunpack]
    cases sign
    · exact (neg_neg _).symm
    · rfl

theorem unpacked_sub_eq (first second : UnpackedFloat) :
    UnpackedFloat.sub .binary64 first second = UnpackedFloat.add .binary64 first second.neg := by
  cases first with
  | finite sign mantissa exponent hpos =>
      cases second with
      | finite other mantissa' exponent' hpos' =>
          have hother : ∀ size : ℤ, (-other).apply size = -other.apply size := by
            intro size
            cases other
            · exact (Int.neg_neg size).symm
            · rfl
          simp only [UnpackedFloat.sub, UnpackedFloat.add, UnpackedFloat.neg, hother,
            Int.sub_eq_add_neg]
      | _ => rfl
  | _ => cases second <;> rfl

theorem float_sub_eq_add_neg (x y : Float) : x - y = x + -y := by
  apply congrArg (fun result => Float.ofModel (.pack result))
  rw [unpack_neg, unpacked_sub_eq]

theorem rounded_sub {x y : Float} (hx : x.isFinite = true) (hy : y.isFinite = true) :
    Rounded (x - y) (exact x - exact y) := by
  obtain ⟨hneg, hexact⟩ := exact_neg hy
  have hsum := rounded_add hx hneg
  rwa [hexact, Rat.cast_neg, ← sub_eq_add_neg, ← float_sub_eq_add_neg] at hsum

end ScanPath
