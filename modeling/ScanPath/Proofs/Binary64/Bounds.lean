import ScanPath.Proofs.Binary64.Operations

/-!
# Bounds that operations keep

How large a result can get follows from the sizes of the operands, since rounding
does not go past a power of two and does not change an order.
-/

namespace ScanPath

open Float.Model Float.Model.UnpackedFloat

theorem Within.mul {x y : Float} {power other : ℕ} (hx : Within x power) (hy : Within y other)
    (hpower : power + other < 1024) : Within (x * y) (power + other) := by
  apply (rounded_mul hx.isFinite hy.isFinite).within _ hpower
  rw [abs_mul, pow_add]
  exact mul_le_mul hx.abs_le hy.abs_le (abs_nonneg _) (pow_nonneg two_pos.le _)

theorem Within.add {x y : Float} {power : ℕ} (hx : Within x power) (hy : Within y power)
    (hpower : power + 1 < 1024) : Within (x + y) (power + 1) := by
  apply (rounded_add hx.isFinite hy.isFinite).within _ hpower
  rw [pow_succ, mul_two]
  exact (abs_add_le _ _).trans (add_le_add hx.abs_le hy.abs_le)

theorem exact_pos {x : Float} (h : 0.0 < x) (hfinite : x.isFinite = true) : 0 < exact x := by
  have hzero : (0.0 : Float).toModel.unpack = .zero .positive := rfl
  rw [lt_iff_compare, hzero] at h
  rcases unpack_of_isFinite hfinite with
    ⟨sign, hunpack⟩ | ⟨sign, mantissa, exponent, hpos, hunpack⟩ <;> rw [hunpack] at h
  · cases h
  · cases sign with
    | negative => cases h
    | positive =>
        rw [← Rat.cast_pos (K := ℝ), exact_eq_signed hunpack]
        exact mul_pos (Nat.cast_pos.mpr hpos) (zpow_pos two_pos _)

theorem exact_div_nonneg {x y : Float} (hx : x.isFinite = true) (hy : y.isFinite = true)
    (hdividend : 0.0 < x) (hdivisor : 0.0 < y) : 0 ≤ exact (x / y) := by
  have hpos := exact_pos hdivisor hy
  apply (rounded_div hx hy hpos.ne').nonneg
  exact_mod_cast div_nonneg (exact_pos hdividend hx).le hpos.le

theorem one_le_exact_countToFloat {count : ℕ} (hpos : 0 < count) (hlimit : count < countLimit) :
    1 ≤ exact (countToFloat count) := by
  have hone : nearest 1 = 1 := by simpa using nearest_two_pow 0
  have hrounded := rounded_countToFloat hlimit
  have hsize := hrounded.abs_exact (within_toFloat count.toUInt64).isFinite
  rw [abs_of_nonneg (Rat.cast_nonneg.mpr (hrounded.nonneg (Nat.cast_nonneg _))), Nat.abs_cast]
    at hsize
  rw [← Rat.cast_le (K := ℝ), Rat.cast_one, hsize, ← hone]
  exact nearest_mono zero_le_one (by exact_mod_cast hpos)

/-- Finite and between zero and another float. -/
structure UpTo (x y : Float) : Prop where
  isFinite : x.isFinite = true
  nonneg : 0 ≤ exact x
  le : exact x ≤ exact y

theorem Rounded.upTo {x y : Float} {value bound : ℝ} (hx : Rounded x value) (hy : Rounded y bound)
    (hnonneg : 0 ≤ value) (hle : value ≤ bound) (hfinite : y.isFinite = true) : UpTo x y := by
  obtain ⟨hx', hsize⟩ := hx.le hy (abs_le_abs_of_nonneg hnonneg hle) hfinite
  have hlow := hx.nonneg hnonneg
  rw [abs_of_nonneg hlow, abs_of_nonneg (hy.nonneg (hnonneg.trans hle))] at hsize
  exact ⟨hx', hlow, hsize⟩

theorem upTo_self {x : Float} (hx : x.isFinite = true) (hnonneg : 0 ≤ exact x) : UpTo x x :=
  ⟨hx, hnonneg, le_rfl⟩

namespace UpTo

variable {x x' y y' : Float}

theorem mul (h : UpTo x y) (h' : UpTo x' y') (hproduct : (y * y').isFinite = true) :
    UpTo (x * x') (y * y') := by
  obtain ⟨hy, hy'⟩ := isFinite_of_isFinite_mul hproduct
  apply (rounded_mul h.isFinite h'.isFinite).upTo (rounded_mul hy hy') _ _ hproduct
  · exact_mod_cast mul_nonneg h.nonneg h'.nonneg
  · exact_mod_cast mul_le_mul h.le h'.le h'.nonneg (h.nonneg.trans h.le)

theorem add (h : UpTo x y) (h' : UpTo x' y') (hsum : (y + y').isFinite = true) :
    UpTo (x + x') (y + y') := by
  obtain ⟨hy, hy'⟩ := isFinite_of_isFinite_add hsum
  apply (rounded_add h.isFinite h'.isFinite).upTo (rounded_add hy hy') _ _ hsum
  · exact_mod_cast add_nonneg h.nonneg h'.nonneg
  · exact_mod_cast add_le_add h.le h'.le

theorem sqrt (h : UpTo x y) (hy : y.isFinite = true) (hroot : y.sqrt.isFinite = true) :
    UpTo x.sqrt y.sqrt :=
  (rounded_sqrt h.isFinite h.nonneg).upTo (rounded_sqrt hy (h.nonneg.trans h.le))
    (Real.sqrt_nonneg _) (Real.sqrt_le_sqrt (Rat.cast_le.mpr h.le)) hroot

theorem countToFloat {index last : ℕ} (hle : index ≤ last) (hlimit : last < countLimit) :
    UpTo (countToFloat index) (countToFloat last) :=
  (rounded_countToFloat (hle.trans_lt hlimit)).upTo (rounded_countToFloat hlimit)
    (Nat.cast_nonneg index) (Nat.cast_le.mpr hle) (within_toFloat last.toUInt64).isFinite

end UpTo

theorem isFinite_mul_of_le {x x' y y' : Float} (hx : x.isFinite = true) (hx' : x'.isFinite = true)
    (h : |exact x| ≤ |exact y|) (h' : |exact x'| ≤ |exact y'|)
    (hproduct : (y * y').isFinite = true) :
    (x * x').isFinite = true ∧ |exact (x * x')| ≤ |exact (y * y')| := by
  obtain ⟨hy, hy'⟩ := isFinite_of_isFinite_mul hproduct
  apply (rounded_mul hx hx').le (rounded_mul hy hy') _ hproduct
  rw [abs_mul, abs_mul]
  apply mul_le_mul _ _ (abs_nonneg _) (abs_nonneg _)
  · exact_mod_cast h
  · exact_mod_cast h'

theorem isFinite_add_of_between {x offset bound : Float} (hx : x.isFinite = true)
    (hoffset : offset.isFinite = true)
    (hbetween : 0 ≤ exact offset ∧ exact offset ≤ exact bound ∨
      exact bound ≤ exact offset ∧ exact offset ≤ 0)
    (hbound : (x + bound).isFinite = true) : (x + offset).isFinite = true := by
  have hsum := rounded_add hx hoffset
  have hfurthest := rounded_add hx (isFinite_of_isFinite_add hbound).2
  have hle : |(exact x + exact offset : ℝ)| ≤
      max |(exact x : ℝ)| |(exact x + exact bound : ℝ)| := by
    rcases hbetween with ⟨hlow, hhigh⟩ | ⟨hlow, hhigh⟩
    · have hlow' : (0 : ℝ) ≤ exact offset := Rat.cast_nonneg.mpr hlow
      have hhigh' : (exact offset : ℝ) ≤ exact bound := Rat.cast_le.mpr hhigh
      exact abs_le_max_abs_abs (by linarith) (by linarith)
    · have hlow' : (exact bound : ℝ) ≤ exact offset := Rat.cast_le.mpr hlow
      have hhigh' : (exact offset : ℝ) ≤ 0 := Rat.cast_nonpos.mpr hhigh
      rw [max_comm]
      exact abs_le_max_abs_abs (by linarith) (by linarith)
  rcases le_max_iff.mp hle with h | h
  · exact (hsum.le (rounded_self hx) h hx).1
  · exact (hsum.le hfurthest h hbound).1

theorem isFinite_of_extreme {centre reach extent factor : Float} (hcentre : centre.isFinite = true)
    (hextent : UpTo extent reach) (hfactor : -1.0 ≤ factor ∧ factor ≤ 1.0)
    (hextreme : (centre.abs + reach).isFinite = true) :
    (centre + extent * factor).isFinite = true := by
  obtain ⟨hfactor, hone⟩ := within_zero_iff.mp (within_one hfactor.1 hfactor.2)
  have hpart : (extent * factor).isFinite = true ∧ |exact (extent * factor)| ≤ |exact extent| := by
    apply (rounded_mul hextent.isFinite hfactor).le (rounded_self hextent.isFinite) _
      hextent.isFinite
    rw [abs_mul]
    exact mul_le_of_le_one_right (abs_nonneg _) hone
  have hsize : |(exact (extent * factor) : ℝ)| ≤ exact reach := by
    have hle := hpart.2.trans ((abs_of_nonneg hextent.nonneg).trans_le hextent.le)
    exact_mod_cast hle
  obtain ⟨habs, hreach⟩ := isFinite_of_isFinite_add hextreme
  apply ((rounded_add hcentre hpart.1).le (rounded_add habs hreach) _ hextreme).1
  rw [(exact_abs hcentre).2, Rat.cast_abs]
  calc |(exact centre + exact (extent * factor) : ℝ)|
      ≤ |(exact centre : ℝ)| + |(exact (extent * factor) : ℝ)| := abs_add_le _ _
    _ ≤ |(exact centre : ℝ)| + exact reach := by linarith
    _ ≤ |(|(exact centre : ℝ)| + exact reach)| := le_abs_self _

end ScanPath
